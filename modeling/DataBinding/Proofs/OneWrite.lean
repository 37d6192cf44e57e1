import DataBinding.Proofs.Assignment

/-!
# One write

Whatever can fail of an assignment is over before anything is written. Looking for the place makes objects at most
(`Session.OnlyMakes`), and what is left is one write to it. That place is the one that the innermost target denotes in
the state before. For what the arguments of converters have made by the time the target is looked at is out of its
reach: two states that agree on what a target can come across lead to the same place (`Expr.LeadsTo.of_sameNear`).
-/

namespace DataBinding

open Session (Shared Within sharedIn sharedInScope contents)

namespace Eval

variable {H : Shared → Prop} {floor n : Nat} {ctx : EvalContext} {α β : Type} {a b : EvalState}

/-! ### Names depend on the levels alone -/

theorem findIn_congr {has has' : ObjectId → String → Bool} {name : String} {ls : List Level}
    (h : ∀ l ∈ ls, has' l.context name = has l.context name ∧ has' l.override name = has l.override name) :
    findIn has' name ls = findIn has name ls := by
  induction ls with
  | nil => rfl
  | cons l ls ih =>
    rw [List.forall_mem_cons] at h
    simp only [findIn, Level.defining?, h.1.1, h.1.2, ih h.2]

theorem resolve_congr {has has' : ObjectId → String → Bool} {x : Scope} {name : String} {depth : Nat}
    {host : Option Scope}
    (h : ∀ l ∈ x.levels ++ host.toList.flatMap Scope.levels,
      has' l.context name = has l.context name ∧ has' l.override name = has l.override name) :
    resolve has' x name depth host = resolve has x name depth host := by
  rw [List.forall_mem_append] at h
  cases depth with
  | zero =>
    have hhost : (host.bind fun y => findIn has' name y.levels) = host.bind fun y => findIn has name y.levels := by
      cases host with
      | none => rfl
      | some y => exact findIn_congr (by simpa using h.2)
    simp only [resolve, findIn_congr h.1, hhost]
  | succ d =>
    simp only [resolve]
    cases hl : x.ancestor? (d + 1) with
    | none => rfl
    | some l =>
      have hsame := h.1 l (List.mem_of_getElem? hl)
      simp only [Option.map_some, Level.defining?, hsame.1, hsame.2]

/-- Where a name belongs depends on which objects of the levels have it. -/
theorem located_of_hasProperty {s s' : Store} {name : String} (h : ∀ l ∈ ctx.levels,
      s'.hasProperty l.context name = s.hasProperty l.context name ∧
        s'.hasProperty l.override name = s.hasProperty l.override name) (k : UInt32) (f : Bool) :
    located ctx s' name k f = located ctx s name k f := by
  have hlevels : ctx.levels = ctx.scope.levels ++ ctx.host.toList.flatMap Scope.levels := rfl
  unfold located
  cases hhost : ctx.host with
  | none =>
    rw [hhost] at hlevels
    cases f with
    | false => exact resolve_congr (hlevels ▸ h)
    | true => rfl
  | some y =>
    rw [hhost] at hlevels
    rw [hlevels] at h
    cases f with
    | false => exact resolve_congr h
    | true => exact resolve_congr (by simpa using fun l hl => h l (List.mem_append.2 (.inr (by simpa using hl))))

/-- Where a name belongs depends on the objects of the levels alone. -/
theorem located_of_levels {s s' : Store} (h : ∀ l ∈ ctx.levels, s'.object l.context = s.object l.context ∧
      s'.object l.override = s.object l.override) (name : String) (k : UInt32) (f : Bool) :
    located ctx s' name k f = located ctx s name k f := by
  refine located_of_hasProperty (fun l hl => ?_) k f
  simp only [Store.hasProperty, h l hl, and_self]

/-! ### What an evaluation can come across -/

/-- What was in hand before, and the objects that were made since then: those from `floor` on and below `n`. -/
def Near (H : Shared → Prop) (floor n : Nat) (x : Shared) : Prop :=
  H x ∨ ∃ o, x = .object o ∧ floor ≤ o.number ∧ o.number < n

theorem Near.later {m : Nat} (h : n ≤ m) {x : Shared} (hx : Near H floor n x) : Near H floor m x :=
  hx.imp_right fun ⟨o, ho, hfloor, hn⟩ => ⟨o, ho, hfloor, Nat.lt_of_lt_of_le hn h⟩

/-- The states agree on all that is near, and nothing near leads away from it. `n` is the next identity in both. -/
structure SameNear (H : Shared → Prop) (floor n : Nat) (a b : EvalState) : Prop where
  next : a.store.fresh = n
  next' : b.store.fresh = n
  above : floor ≤ n
  object {o : ObjectId} : Near H floor n (.object o) → b.store.object o = a.store.object o
  closed {o : ObjectId} : Near H floor n (.object o) → Within (Near H floor n) (contents a.store (.object o))

/-- From states that agree the two computations come to states that agree, with the same result, and of it `Q` holds. -/
def NearAlike (H : Shared → Prop) (floor n : Nat) (Q : Nat → α → Prop) (m m' : Eval α) : Prop :=
  ∀ a b, SameNear H floor n a b → ∃ k, n ≤ k ∧ SameNear H floor k (m.run a).2 (m'.run b).2 ∧
    (m'.run b).1 = (m.run a).1 ∧ ∀ r, (m.run a).1 = .ok r → Q k r

/-- A computation that leaves its state alone, but for what it reports. -/
theorem NearAlike.of_still {Q : Nat → α → Prop} {m : Eval α} (hstore : ∀ a, (m.run a).2.store = a.store)
    (h : ∀ a b, SameNear H floor n a b → (m.run b).1 = (m.run a).1 ∧ ∀ r, (m.run a).1 = .ok r → Q n r) :
    NearAlike H floor n Q m m := by
  intro a b hab
  obtain ⟨hsame, hq⟩ := h a b hab
  refine ⟨n, Nat.le_refl n, ?_, hsame, hq⟩
  constructor
  · rw [hstore]
    exact hab.next
  · rw [hstore]
    exact hab.next'
  · exact hab.above
  · rw [hstore, hstore]
    exact hab.object
  · rw [hstore]
    exact hab.closed

theorem NearAlike.pure {Q : Nat → α → Prop} {r : α} (h : Q n r) : NearAlike H floor n Q (pure r) (pure r) :=
  .of_still (fun _ => rfl) fun _ _ _ => ⟨rfl, fun _ hr => Except.ok.inj hr ▸ h⟩

theorem NearAlike.throw {Q : Nat → α → Prop} (x : ExpressionError) : NearAlike H floor n Q (throw x : Eval α) (throw x) :=
  .of_still (fun _ => rfl) fun _ _ _ => ⟨rfl, fun _ hr => by cases hr⟩

theorem NearAlike.bind {Q : Nat → α → Prop} {Q' : Nat → β → Prop} {m m' : Eval α} {f f' : α → Eval β}
    (hm : NearAlike H floor n Q m m') (hf : ∀ k r, n ≤ k → Q k r → NearAlike H floor k Q' (f r) (f' r)) :
    NearAlike H floor n Q' (m >>= f) (m' >>= f') := by
  intro a b hab
  obtain ⟨k, hk, hnear, hsame, hq⟩ := hm a b hab
  rw [run_bind, run_bind]
  cases hrun : m.run a with
  | mk r a' =>
    cases hrun' : m'.run b with
    | mk r' b' =>
      rw [hrun, hrun'] at hnear hsame
      rw [hrun] at hq
      obtain rfl : r' = r := hsame
      cases r' with
      | error x => exact ⟨k, hk, hnear, rfl, fun _ hr => by cases hr⟩
      | ok r =>
        obtain ⟨l, hl, hnear', hsame', hq'⟩ := hf k r hk (hq r rfl) a' b' hnear
        exact ⟨l, Nat.le_trans hk hl, hnear', hsame', hq'⟩

theorem NearAlike.run {Q : Nat → α → Prop} {m m' : Eval α} (h : NearAlike H floor n Q m m') (hab : SameNear H floor n a b)
    {r : Except ExpressionError α} {a' : EvalState} (hr : m.run a = (r, a')) :
    ∃ b' k, m'.run b = (r, b') ∧ SameNear H floor k a' b' := by
  obtain ⟨k, _, hnear, hsame, _⟩ := h a b hab
  rw [hr] at hnear hsame
  exact ⟨(m'.run b).2, k, Prod.ext hsame rfl, hnear⟩

theorem SameNear.near_property (h : SameNear H floor n a b) {o : ObjectId} (ho : Near H floor n (.object o))
    (name : String) : Within (Near H floor n) (sharedIn (a.store.property o name)) := by
  intro x hx
  unfold Store.property Object.get at hx
  cases hp : (a.store.object o).properties.get? name with
  | none => simp [hp, sharedIn] at hx
  | some v =>
    rw [hp] at hx
    exact h.closed ho x (List.mem_flatMap.2 ⟨v, Table.mem_values_of_get? hp, hx⟩)

theorem nearAlike_newObject {ks : List String} {xs : List Value} (hxs : ∀ x ∈ xs, Within (Near H floor n) (sharedIn x)) :
    NearAlike H floor n (fun k v => Within (Near H floor k) (sharedIn v)) (newObject (ks.zip xs)) (newObject (ks.zip xs)) := by
  intro a b hab
  rw [run_newObject, run_newObject]
  have hid : (⟨b.store.fresh⟩ : ObjectId) = ⟨a.store.fresh⟩ := by rw [hab.next, hab.next']
  have hnew : Near H floor (n + 1) (.object ⟨a.store.fresh⟩) :=
    .inr ⟨_, rfl, by rw [hab.next]; exact hab.above, by rw [hab.next]; exact Nat.lt_succ_self n⟩
  -- anything else that is near was near before
  have hbefore : ∀ o : ObjectId, o ≠ ⟨a.store.fresh⟩ → Near H floor (n + 1) (.object o) → Near H floor n (.object o) := by
    rintro o hne (ho | ⟨p, hp, hfloor, hlt⟩)
    · exact .inl ho
    · obtain rfl := Shared.object.inj hp
      refine .inr ⟨o, rfl, hfloor, Nat.lt_of_le_of_ne (Nat.le_of_lt_succ hlt) fun hnumber => hne ?_⟩
      rw [hab.next, ← hnumber]
  refine ⟨n + 1, Nat.le_succ n, ?_, by simp only [Store.newObject, hid], ?_⟩
  · constructor
    · simp only [Store.newObject, hab.next]
    · simp only [Store.newObject, hab.next']
    · exact Nat.le_succ_of_le hab.above
    · intro o ho
      simp only [Store.newObject, Store.object, Table.get?_insert, hid]
      by_cases hne : ⟨a.store.fresh⟩ = o
      · rw [if_pos hne, if_pos hne]
      · rw [if_neg hne, if_neg hne]
        exact hab.object (hbefore o (Ne.symm hne) ho)
    · intro o ho x hx
      simp only [Store.newObject, contents, Store.object, Table.get?_insert] at hx
      by_cases hne : ⟨a.store.fresh⟩ = o
      · rw [if_pos hne] at hx
        obtain ⟨v, hv, hxv⟩ := List.mem_flatMap.1 hx
        obtain ⟨k, hk⟩ := Session.mem_values_ofList hv
        exact (hxs v (List.of_mem_zip hk).2 x hxv).later (Nat.le_succ n)
      · rw [if_neg hne] at hx
        exact (hab.closed (hbefore o (Ne.symm hne) ho) x hx).later (Nat.le_succ n)
  · intro v hv x hx
    obtain rfl := Except.ok.inj hv
    obtain rfl := List.mem_singleton.1 hx
    exact hnew

/-- The rules by which evaluations that watch nothing come to the same in states that agree. -/
theorem nearAlike_rules (hlevels : ∀ l ∈ ctx.levels, H (.object l.context) ∧ H (.object l.override))
    (htame : ∀ name c, ctx.converters.get? name = some c → c.IsTame) :
    Rules (fun n k : Nat => n ≤ k) ctx ctx (fun w w' => w = .nothing ∧ w' = .nothing) (fun _ => True)
      (fun n v => Within (Near H floor n) (sharedIn v)) (fun n Q m m' => NearAlike H floor n Q m m') where
  strict := rfl
  scope := rfl
  watchObject := by
    rintro w w' ⟨rfl, rfl⟩
    exact ⟨rfl, rfl⟩
  mono hlater hv := hv.mono fun _ => Near.later hlater
  plain hv := by simp [hv, Within]
  items := by simp only [sharedIn, Session.sharedInAll_eq, Within.flatMap, implies_true]
  level hl := by
    intro x hx
    obtain rfl := List.mem_singleton.1 hx
    exact .inl (hlevels _ (mem_levels_of_ancestor? hl)).1
  pure := .pure
  throw := .throw
  bind hm hf := .bind hm fun k r hk hr => hf k r hk hr
  lookUp {n name k f} _ := by
    refine .of_still (fun a => by rw [run_lookUp]) fun a b hab => ?_
    rw [run_lookUp, run_lookUp]
    refine ⟨congrArg Except.ok (located_of_levels (fun l hl => ?_) ..), fun o? ho o hso x hx => ?_⟩
    · exact ⟨hab.object (.inl (hlevels l hl).1), hab.object (.inl (hlevels l hl).2)⟩
    · obtain rfl := Except.ok.inj ho
      obtain rfl := List.mem_singleton.1 hx
      obtain ⟨l, hl, rfl | rfl⟩ := exists_level_of_located hso
      · exact .inl (hlevels l hl).1
      · exact .inl (hlevels l hl).2
  readValue := by
    rintro n w w' o name ⟨rfl, rfl⟩ ho
    have hnear : Near H floor n (.object o) := ho _ (by simp [sharedIn])
    refine .of_still (fun a => by rw [run_readValue]) fun a b hab => ?_
    rw [run_readValue, run_readValue]
    refine ⟨by simp only [Store.property, hab.object hnear], fun v hv => ?_⟩
    obtain rfl := Except.ok.inj hv
    exact hab.near_property hnear name
  readThrough := by
    rintro n w w' v ⟨rfl, rfl⟩ hv
    have hempty : Within (Near H floor n) (sharedIn v.orEmpty) := by
      unfold Value.orEmpty
      split
      · simp [Within, sharedIn]
      · exact hv
    cases v <;> exact .pure hempty
  operate {n op _ _ x y} _ _ hy := by
    refine .of_still (fun _ => rfl) fun a b hab => ⟨?_, fun v hv => ?_⟩
    · change Except.ok (Operator.binary b.store.hasProperty op x y) = .ok (Operator.binary a.store.hasProperty op x y)
      -- the store has a say only in whether an object has a name
      cases op
      case isIn =>
        cases y
        case object o => simp only [Operator.binary, Store.hasProperty, hab.object (hy (.object o) (by simp [sharedIn]))]
        all_goals rfl
      all_goals rfl
    · obtain rfl := Except.ok.inj hv
      simp [sharedIn_binary, Within]
  newObject _ hxs := nearAlike_newObject hxs
  converter {n _ name _} _ := by
    refine .of_still (fun a => ?_) fun a b _ => ⟨?_, fun c hc k v xs hv hxs => ?_⟩
    · rw [run_converter]
      cases ctx.converters.get? name <;> rfl
    · rw [run_converter, run_converter]
      cases ctx.converters.get? name <;> rfl
    · rw [run_converter] at hc
      cases hget : ctx.converters.get? name with
      | none =>
        rw [hget] at hc
        cases hc
      | some c' =>
        rw [hget] at hc
        obtain rfl := Except.ok.inj hc
        exact (htame name c' hget).toView hv hxs

end Eval

namespace Expr

open Eval

variable {H : Shared → Prop} {floor n : Nat} {ctx : EvalContext} {t t' u : EvalState} {e : Expr} {v : Value}
  {d : Destination}

/-! ### Where the innermost target leads to -/

/-- An assignment leads to the same place from every state that agrees on what can be come across. -/
theorem LeadsTo.of_sameNear (h : LeadsTo ctx t e v d t') (hu : SameNear H floor n t u)
    (hlevels : ∀ l ∈ ctx.levels, H (.object l.context) ∧ H (.object l.override))
    (htame : ∀ name c, ctx.converters.get? name = some c → c.IsTame) : ∃ u' k, LeadsTo ctx u e v d u' ∧ SameNear H floor k t' u' := by
  have hevaluate (e : Expr) (n : Nat) : NearAlike H floor n (fun k v => Within (Near H floor k) (sharedIn v))
      (e.evaluate ctx .nothing) (e.evaluate ctx .nothing) :=
    (nearAlike_rules hlevels htame).evaluate e (fun _ _ => trivial) ⟨rfl, rfl⟩
  induction h generalizing u n with
  | @scope t name a f v o ho =>
    refine ⟨u, n, .scope ?_, hu⟩
    rw [← ho]
    exact located_of_levels
      (fun l hl => ⟨hu.object (.inl (hlevels l hl).1), hu.object (.inl (hlevels l hl).2)⟩) name a f
  | @member t e name v o t' he =>
    obtain ⟨u', k, he', hnear⟩ := (hevaluate e n).run hu he
    exact ⟨u', k, .member he', hnear⟩
  | @keyed t e key v o _ t' t'' he hkey =>
    obtain ⟨u', k, he', hnear⟩ := (hevaluate e n).run hu he
    obtain ⟨u'', k', hkey', hnear'⟩ := (hevaluate key k).run hnear hkey
    exact ⟨u'', k', .keyed he' hkey', hnear'⟩
  | @converter t e name args v c vs d t' t'' hc hargs _ ih =>
    have hall : NearAlike H floor n (fun k vs => ∀ v ∈ vs, Within (Near H floor k) (sharedIn v))
        (evaluateAll ctx .nothing args) (evaluateAll ctx .nothing args) :=
      (nearAlike_rules hlevels htame).evaluateAll args (fun _ _ _ _ => trivial) ⟨rfl, rfl⟩
    obtain ⟨u', k, hargs', hnear⟩ := hall.run hu hargs
    obtain ⟨u'', k', hlead, hnear'⟩ := ih hnear
    exact ⟨u'', k', .converter hc hargs' hlead, hnear'⟩
  | behavior _ ih =>
    obtain ⟨u', k, hlead, hnear⟩ := ih hu
    exact ⟨u', k, .behavior hlead, hnear⟩

/-- Behind converters and behaviors, what was converted is assigned to the innermost target. Until then the arguments
of the converters were evaluated. -/
theorem LeadsTo.to_assignee (h : LeadsTo ctx t e v d t') :
    ∃ u, Makes t u ∧ LeadsTo ctx u e.assignee d.value d t' := by
  have hctx : ctx = { ctx with alive := ctx.alive } := rfl
  induction h with
  | scope ho => exact ⟨_, .refl, .scope ho⟩
  | member he => exact ⟨_, .refl, .member he⟩
  | keyed he hk => exact ⟨_, .refl, .keyed he hk⟩
  | converter _ hargs _ ih =>
    obtain ⟨u, hmakes, hlead⟩ := ih
    exact ⟨u, ((unwatched_evaluateAll hctx _).makes hargs).trans hmakes, hlead⟩
  | behavior _ ih => exact ih

/-- What has been made is out of reach, so the innermost target leads from the state before to the same place. The new
objects that are made on the way from there get the identities that they have got. -/
theorem LeadsTo.before (h : LeadsTo ctx t e v d t')
    (hlevels : ∀ l ∈ ctx.levels, H (.object l.context) ∧ H (.object l.override))
    (htame : ∀ name c, ctx.converters.get? name = some c → c.IsTame)
    (hclosed : ∀ {o : ObjectId}, H (.object o) → Within H (contents t.store (.object o)))
    (hold : ∀ {o : ObjectId}, H (.object o) → o.number < t.store.fresh) :
    ∃ n u, t.store.fresh ≤ n ∧ LeadsTo ctx { t with store := { t.store with fresh := n } } e.assignee d.value d u := by
  obtain ⟨u, hmakes, hlead⟩ := h.to_assignee
  have hH : ∀ {o : ObjectId}, Near H u.store.fresh u.store.fresh (.object o) → H (.object o) := by
    rintro o (ho | ⟨p, _, hle, hlt⟩)
    · exact ho
    · exact absurd hlt (Nat.not_lt.2 hle)
  have hobject : ∀ {o : ObjectId}, H (.object o) → u.store.object o = t.store.object o := fun ho => by
    simp only [Store.object, hmakes.objects (hold ho)]
  have hnear : SameNear H u.store.fresh u.store.fresh u { t with store := { t.store with fresh := u.store.fresh } } :=
    { next := rfl
      next' := rfl
      above := Nat.le_refl _
      object := fun ho => (hobject (hH ho)).symm
      closed := fun ho => by
        simp only [contents, hobject (hH ho)]
        exact (hclosed (hH ho)).mono fun _ => .inl }
  obtain ⟨u', _, hlead', _⟩ := hlead.of_sameNear hnear hlevels htame
  exact ⟨_, u', hmakes.fresh, hlead'⟩

theorem unwatched_destination (ctx : EvalContext) (e : Expr) (v : Value) :
    Unwatched (fun _ => True) (e.destination ctx v) (e.destination ctx v) := by
  have hctx : ctx = { ctx with alive := ctx.alive } := rfl
  have R := unwatched_rules hctx
  obtain ⟨hmakes, hsame⟩ := R.destination ⟨rfl, rfl⟩
    (fun {a e name args} hd => @Rules.converter _ _ _ _ _ _ _ _ R a e name args hd) e (fun _ _ => trivial) (a := ())
    (v := v) trivial
  exact ⟨fun a => ⟨(hmakes a).1, fun _ _ => trivial⟩, hsame⟩

end Expr

namespace Session

open Eval (Makes)

variable {H : Shared → Prop} {s : Session} {scope : Scope} {host : Option Scope}

/-! ### An assignment as a whole -/

/-- Objects may have been made that nobody listens to, and nothing else has happened: no object that there was has
another value or another listener, no stream another sink, no registry another observer, and nobody was told of
anything. -/
structure OnlyMakes (s t : Session) : Prop where
  objects {p : ObjectId} : p.number < s.store.fresh → t.store.objects.get? p = s.store.objects.get? p
  unheard (p : ObjectId) : (t.store.object p).listeners = (s.store.object p).listeners ∨
    s.store.fresh ≤ p.number ∧ (t.store.object p).listeners = ∅
  streams : t.store.streams = s.store.streams
  observers : t.store.observers = s.store.observers
  collections : t.store.collections = s.store.collections
  systems (y : SystemId) : t.systems.get? y = s.systems.get? y
  rest : { t with store := s.store, systems := s.systems } = s

theorem OnlyMakes.refl (s : Session) : OnlyMakes s s where
  objects _ := rfl
  unheard _ := .inl rfl
  streams := rfl
  observers := rfl
  collections := rfl
  systems _ := rfl
  rest := rfl

theorem onlyMakes_withEval {y : SystemId} {z : System} (hz : s.systems.get? y = some z) {t : EvalState}
    (h : Makes { store := s.store, registry := z.registry } t) : OnlyMakes s (s.withEval y z t) where
  objects := h.objects
  unheard := h.unheard
  streams := h.streams
  observers := h.observers
  collections := h.collections
  systems y' := by
    simp only [withEval, h.registry, Table.get?_insert]
    split
    next heq =>
      subst heq
      exact hz.symm
    · rfl
  rest := rfl

theorem destination_of_get? {y : SystemId} {z : System} (hz : s.systems.get? y = some z) (flags : EvalFlags)
    (scope : Scope) (host : Option Scope) (e : Expr) (v : Value) :
    s.destination y flags scope host e v =
      let r := (e.destination { flags, scope, host, converters := z.converters, alive := s.isAlive } v).run
        { store := s.store, registry := z.registry }
      (s.withEval y z r.2, r.1) := by
  unfold Session.destination
  rw [hz]
  rfl

theorem evaluate_of_get? {y : SystemId} {z : System} (hz : s.systems.get? y = some z) (flags : EvalFlags)
    (scope : Scope) (host : Option Scope) (w : Watch) (e : Expr) :
    s.evaluate y flags scope host w e =
      let r := (e.evaluate { flags, scope, host, converters := z.converters, alive := s.isAlive } w).run
        { store := s.store, registry := z.registry }
      (s.withEval y z r.2, r.2.reads, r.1) := by
  unfold Session.evaluate
  rw [hz]
  rfl

/-- Looking for a place makes objects at most, also when it finds none. -/
theorem onlyMakes_destination (s : Session) (y : SystemId) (flags : EvalFlags) (scope : Scope) (host : Option Scope)
    (e : Expr) (v : Value) : OnlyMakes s (s.destination y flags scope host e v).1 := by
  cases hz : s.systems.get? y with
  | none =>
    unfold Session.destination
    rw [hz]
    exact .refl s
  | some z =>
    rw [destination_of_get? hz]
    exact onlyMakes_withEval hz ((Expr.unwatched_destination _ e v).1 _).1

/-- What assigning a value through an expression does. -/
structure AssignsOnce (s : Session) (y : SystemId) (flags : EvalFlags) (scope : Scope) (host : Option Scope) (e : Expr)
    (v : Value) : Prop where
  /-- Looking for the place makes objects at most, whatever comes of it. -/
  looks : OnlyMakes s (s.destination y flags scope host e v).1
  /-- The assignment fails iff there is no place, and then that was all. -/
  refused (x : ExpressionError) :
    s.assign y flags scope host e v = .error x ↔ (s.destination y flags scope host e v).2 = .error x
  /-- Otherwise it is one write to the place that the innermost target denotes in the state before, and every other
  property of every object that there was stays as it was. -/
  accepted {r : Reaction} (h : s.assign y flags scope host e v = .ok r) : ∃ z d n u,
    s.systems.get? y = some z ∧ s.store.fresh ≤ n ∧
      Expr.LeadsTo { flags, scope, host, converters := z.converters, alive := s.isAlive }
        { store := { s.store with fresh := n }, registry := z.registry } e.assignee d.value d u ∧
      r = (s.destination y flags scope host e v).1.write d.object d.name d.value ∧
      ∀ (p : ObjectId) (name : String), p.number < s.store.fresh → ¬(p = d.object ∧ name = d.name) →
        r.session.store.property p name = s.store.property p name

/-- An assignment in a session with all that is in reach in hand, where names are looked up in scopes in hand. -/
theorem assign_once (hs : Sound H s) (hscope : Within H (sharedInScope scope))
    (hhost : ∀ x, host = some x → Within H (sharedInScope x)) (y : SystemId) (flags : EvalFlags) (e : Expr)
    (v : Value) : AssignsOnce s y flags scope host e v := by
  have hlooks := onlyMakes_destination s y flags scope host e v
  cases hd : s.destination y flags scope host e v with
  | mk t result =>
    rw [hd] at hlooks
    cases result with
    | error x =>
      have hassign : s.assign y flags scope host e v = .error x := by rw [Session.assign, hd]
      constructor
      case looks => rwa [hd]
      case refused => simp [hassign, hd]
      case accepted =>
        intro r hr
        cases hassign.symm.trans hr
    | ok d =>
      have hassign : s.assign y flags scope host e v = .ok (t.write d.object d.name d.value) := by
        rw [Session.assign, hd]
      constructor
      case looks => rwa [hd]
      case refused => simp [hassign, hd]
      case accepted =>
        intro r hr
        obtain rfl := Except.ok.inj (hassign.symm.trans hr)
        cases hz : s.systems.get? y with
        | none => simp [Session.destination, hz] at hd
        | some z =>
          rw [destination_of_get? hz] at hd
          have hplace : Expr.LeadsTo { flags, scope, host, converters := z.converters, alive := s.isAlive }
              { store := s.store, registry := z.registry } e v d _ :=
            Expr.leadsTo_of_run_destination (Prod.ext (congrArg Prod.snd hd) rfl)
          obtain ⟨n, u, hn, hlead⟩ := hplace.before (hand_levels (g := ⟨H, fun _ _ _ => False⟩) _ hscope hhost)
            (hs.tame_of_get? hz) (fun ho => hs.closed ho) fun ho => hs.old (hs.known ho)
          refine ⟨z, d, n, u, rfl, hn, hlead, ?_, fun p name hp hne => ?_⟩
          · rw [destination_of_get? hz, hd]
          · rw [property_write_of_ne _ _ hne]
            simp only [Store.property, Store.object, hlooks.objects hp]

/-- A host with a converter that keeps its arguments. -/
private def signed : List Act :=
  [.command (.makeObject "user" [("name", .text "Ann")]), .command (.makeObject "model" [("user", .object "user")]),
    .command (.makeScope "scope" "model" none none), .command (.addConverter "main" "wrap" .wrap)]

private def signedScope : Scope := ⟨⟨4⟩, ⟨⟨2⟩, ⟨3⟩⟩, []⟩

/-- A new name with a new object beside it, assigned through a key, and a value for an ancestor that is not there. -/
theorem assign_once_signed :
    let s := initial.play signed
    let sign (e : Expr) := Expr.converter e "wrap" [.object ["at"] [.literal (.int 7)]]
    let name := sign (.keyed (.scope "user" 0 false) (.literal (.text "name")))
    let nowhere := sign (.scope "user" 3 false)
    ((s.assign ⟨0⟩ {} signedScope none name (.text "Eve")).toOption.any fun r =>
        (r.session.store.property ⟨1⟩ "name").display = "Eve,[object Object]") = true ∧
      AssignsOnce s ⟨0⟩ {} signedScope none name (.text "Eve") ∧
      s.assign ⟨0⟩ {} signedScope none nowhere (.text "Eve") = .error (.notAssignable .accessScope) ∧
      AssignsOnce s ⟨0⟩ {} signedScope none nowhere (.text "Eve") := by
  intro s sign name nowhere
  have hsound : Sound (· ∈ s.held) s := sound_initial.play signed
  have hheld : (sharedInScope signedScope).all s.held.contains = true := by decide +kernel
  have hscope : Within (· ∈ s.held) (sharedInScope signedScope) := fun x hx =>
    List.contains_iff_mem.1 (List.all_eq_true.1 hheld x hx)
  have hhost : ∀ x, (none : Option Scope) = some x → Within (· ∈ s.held) (sharedInScope x) := fun _ h => by cases h
  refine ⟨by decide +kernel, assign_once hsound hscope hhost .., by rfl, assign_once hsound hscope hhost ..⟩

end Session

end DataBinding
