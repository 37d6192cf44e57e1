import DataBinding.Proofs.Rebinding

/-!
# Where an assignment goes

A value that is assigned through an expression goes to a property of an object, or nowhere. `Expr.LeadsTo` says where,
with one rule for each kind of node that can be assigned to; no rule speaks of a node that reads through streams. Below
such a place, however, anything may stand: objects and keys are looked for without reading through streams, so a marked
key names the property that its stream displays as (`updateSource_marked_key`). `updateSource_of_bound` says when a
binding refuses a value, what is written when it does not, and that streams have no say in it.
-/

namespace DataBinding

namespace Eval

variable {a b c : EvalState}

/-! ### Evaluating without watching -/

/-- Objects may have been made, and nothing else has happened. -/
structure Makes (a b : EvalState) : Prop where
  streams : b.store.streams = a.store.streams
  observers : b.store.observers = a.store.observers
  collections : b.store.collections = a.store.collections
  registry : b.registry = a.registry
  fresh : a.store.fresh ≤ b.store.fresh
  objects {p : ObjectId} : p.number < a.store.fresh → b.store.objects.get? p = a.store.objects.get? p
  /-- Nobody listens to what was made. -/
  unheard (p : ObjectId) : (b.store.object p).listeners = (a.store.object p).listeners ∨
    a.store.fresh ≤ p.number ∧ (b.store.object p).listeners = ∅

theorem Makes.refl : Makes a a := ⟨rfl, rfl, rfl, rfl, Nat.le_refl _, fun _ => rfl, fun _ => .inl rfl⟩

theorem Makes.trans (h : Makes a b) (h' : Makes b c) : Makes a c where
  streams := h'.streams.trans h.streams
  observers := h'.observers.trans h.observers
  collections := h'.collections.trans h.collections
  registry := h'.registry.trans h.registry
  fresh := Nat.le_trans h.fresh h'.fresh
  objects hp := (h'.objects (Nat.lt_of_lt_of_le hp h.fresh)).trans (h.objects hp)
  unheard p := by
    rcases h'.unheard p with hsame | ⟨hp, hnone⟩
    · rw [hsame]
      exact h.unheard p
    · exact .inr ⟨Nat.le_trans h.fresh hp, hnone⟩

theorem makes_newObject (a : EvalState) (ps : Table String Value) :
    Makes a { a with store := (a.store.newObject ps).1 } where
  streams := rfl
  observers := rfl
  collections := rfl
  registry := rfl
  fresh := Nat.le_succ _
  objects {p} hp := by
    simp only [Store.newObject, Table.get?_insert]
    rw [if_neg]
    rintro rfl
    exact Nat.lt_irrefl _ hp
  unheard p := by
    simp only [Store.newObject, Store.object, Table.get?_insert]
    split
    next hp => exact .inr ⟨Nat.le_of_eq (congrArg Id.number hp), rfl⟩
    · exact .inl rfl

/-- The two states have the same objects, and make the same ones next. -/
def SameObjects (a b : EvalState) : Prop := b.store.objects = a.store.objects ∧ b.store.fresh = a.store.fresh

/-- The two computations make objects alone, and of a result `Q` holds. From states with the same objects they come to
such states, with the same result. -/
def Unwatched {α : Type} (Q : α → Prop) (m m' : Eval α) : Prop :=
  (∀ a, Makes a (m.run a).2 ∧ ∀ r, (m.run a).1 = .ok r → Q r) ∧
    ∀ a b, SameObjects a b → (m'.run b).1 = (m.run a).1 ∧ SameObjects (m.run a).2 (m'.run b).2

section

variable {α β : Type} {Q : α → Prop} {Q' : β → Prop}

theorem Unwatched.pure {r : α} (h : Q r) : Unwatched Q (pure r) (pure r) :=
  ⟨fun _ => ⟨.refl, fun _ hr => Except.ok.inj hr ▸ h⟩, fun _ _ h => ⟨rfl, h⟩⟩

theorem Unwatched.throw (x : ExpressionError) : Unwatched Q (throw x : Eval α) (throw x) :=
  ⟨fun _ => ⟨.refl, fun _ hr => by cases hr⟩, fun _ _ h => ⟨rfl, h⟩⟩

theorem Unwatched.bind {m m' : Eval α} {f f' : α → Eval β} (hm : Unwatched Q m m')
    (hf : ∀ r, Q r → Unwatched Q' (f r) (f' r)) : Unwatched Q' (m >>= f) (m' >>= f') := by
  refine ⟨fun a => ?_, fun a b hab => ?_⟩
  · obtain ⟨hmake, hq⟩ := hm.1 a
    rw [run_bind]
    cases hrun : m.run a with
    | mk r? a' =>
      rw [hrun] at hmake hq
      cases r? with
      | error x => exact ⟨hmake, fun _ h => by cases h⟩
      | ok r =>
        obtain ⟨hmake', hq'⟩ := (hf r (hq r rfl)).1 a'
        exact ⟨hmake.trans hmake', hq'⟩
  · have hq := (hm.1 a).2
    obtain ⟨hr, hsame⟩ := hm.2 a b hab
    rw [run_bind, run_bind]
    cases hrun : m.run a with
    | mk r? a' =>
      cases hrun' : m'.run b with
      | mk r?' b' =>
        rw [hrun] at hr hsame hq
        rw [hrun'] at hr hsame
        obtain rfl : r?' = r? := hr
        cases r?' with
        | error x => exact ⟨rfl, hsame⟩
        | ok r => exact (hf r (hq r rfl)).2 a' b' hsame

theorem Unwatched.makes {m m' : Eval α} (h : Unwatched Q m m') {r : Except ExpressionError α} (hr : m.run a = (r, b)) :
    Makes a b := by
  have hmake := (h.1 a).1
  rwa [hr] at hmake

theorem Unwatched.run {m m' : Eval α} (h : Unwatched Q m m') {r : Except ExpressionError α} (hr : m.run a = (r, b))
    (hc : SameObjects a c) : ∃ d, m'.run c = (r, d) ∧ SameObjects b d := by
  obtain ⟨hsame, hobjects⟩ := h.2 a c hc
  rw [hr] at hsame hobjects
  exact ⟨(m'.run c).2, Prod.ext hsame rfl, hobjects⟩

/-- An operation that leaves its state alone, and whose result depends on the objects only. -/
theorem Unwatched.of_objects {m m' : Eval α} (hm : ∀ a, (m.run a).2 = a) (hm' : ∀ a, (m'.run a).2 = a)
    (hq : ∀ a r, (m.run a).1 = .ok r → Q r) (h : ∀ a b, SameObjects a b → (m'.run b).1 = (m.run a).1) :
    Unwatched Q m m' := by
  refine ⟨fun a => ⟨?_, hq a⟩, fun a b hab => ⟨h a b hab, ?_⟩⟩
  · rw [hm]
    exact .refl
  · rw [hm, hm']
    exact hab

end

theorem SameObjects.hasProperty (h : SameObjects a b) : b.store.hasProperty = a.store.hasProperty := by
  funext p n
  simp only [Store.hasProperty, Store.object, h.1]

/-- The rules by which evaluations that watch nothing make objects alone. -/
theorem unwatched_rules {ctx ctx' : EvalContext} (h : ctx' = { ctx with alive := ctx'.alive }) :
    Rules (fun _ _ : Unit => True) ctx ctx' (fun w w' => w = .nothing ∧ w' = .nothing) (fun _ => True)
      (fun _ _ => True) (fun _ Q m m' => Unwatched (Q ()) m m') where
  strict := by rw [h]
  scope := by rw [h]
  watchObject := by
    rintro w w' ⟨rfl, rfl⟩
    exact ⟨rfl, rfl⟩
  mono _ _ := trivial
  plain _ := trivial
  items := by simp
  level _ := trivial
  pure hQ := .pure hQ
  throw := .throw
  bind hm hf := .bind hm fun r hr => hf () r trivial hr
  lookUp {_ n c f} _ := by
    refine .of_objects (fun a => by rw [run_lookUp]) (fun a => by rw [run_lookUp]) (fun _ _ _ _ _ => trivial)
      fun a b hab => ?_
    rw [run_lookUp, run_lookUp, h]
    simp only [located, hab.hasProperty]
  readValue := by
    rintro _ w w' p n ⟨rfl, rfl⟩ -
    refine .of_objects (fun a => by rw [run_readValue]; rfl) (fun a => by rw [run_readValue]; rfl)
      (fun _ _ _ => trivial) fun a b hab => ?_
    rw [run_readValue, run_readValue]
    simp only [Store.property, Store.object, hab.1]
  readThrough := by
    rintro _ w w' v ⟨rfl, rfl⟩ -
    cases v <;> exact .pure trivial
  operate {_ op _ _ x y} _ _ _ := by
    refine .of_objects (fun _ => rfl) (fun _ => rfl) (fun _ _ _ => trivial) fun a b hab => ?_
    change Except.ok (Operator.binary b.store.hasProperty op x y) = .ok (Operator.binary a.store.hasProperty op x y)
    rw [hab.hasProperty]
  newObject _ _ := by
    refine ⟨fun a => ⟨?_, fun _ _ => trivial⟩, fun a b hab => ?_⟩
    · rw [run_newObject]
      exact makes_newObject a _
    · rw [run_newObject, run_newObject]
      exact ⟨by simp only [Store.newObject, hab.2], by simp only [SameObjects, Store.newObject, hab.1, hab.2, and_self]⟩
  converter {_ _ n _} _ := by
    have hsame : Eval.converter ctx' n = Eval.converter ctx n := by rw [h]; rfl
    rw [hsame]
    unfold Eval.converter
    split
    · exact .pure fun _ _ _ _ _ => trivial
    · exact .throw _

end Eval

namespace Expr

open Eval

/-! ### Places -/

/-- Assigning `v` through the expression leads to the place `d`: objects are looked for without reading through streams,
converters change the value on the way, and behaviors let it pass. `t'` is the state `t` after the objects in between
were evaluated. -/
inductive LeadsTo (ctx : EvalContext) : EvalState → Expr → Value → Destination → EvalState → Prop
  | scope {t n a h v o} : located ctx t.store n a h = some o → LeadsTo ctx t (.scope n a h) v ⟨o, n, v⟩ t
  | member {t e n v o t'} : (e.evaluate ctx .nothing).run t = (.ok (.object o), t') →
    LeadsTo ctx t (.member e n) v ⟨o, n, v⟩ t'
  | keyed {t e k v o key t' t''} : (e.evaluate ctx .nothing).run t = (.ok (.object o), t') →
    (k.evaluate ctx .nothing).run t' = (.ok key, t'') → LeadsTo ctx t (.keyed e k) v ⟨o, key.display, v⟩ t''
  | converter {t e n args v c vs d t' t''} : ctx.converters.get? n = some c →
    (evaluateAll ctx .nothing args).run t = (.ok vs, t') → LeadsTo ctx t' e (c.fromView v vs) d t'' →
    LeadsTo ctx t (.converter e n args) v d t''
  | behavior {t e n args v d t'} : LeadsTo ctx t e v d t' → LeadsTo ctx t (.behavior e n args) v d t'

/-- The node that is assigned to, below converters and behaviors. -/
def assignee : Expr → Expr
  | converter e _ _ | behavior e _ _ => e.assignee
  | e => e

variable {ctx : EvalContext} {t t' : EvalState} {e : Expr} {v : Value} {d : Destination}

/-- A node that reads through a stream is no place. -/
theorem LeadsTo.not_isStreamAware (h : LeadsTo ctx t e v d t') : e.assignee.kind.isStreamAware = false := by
  induction h with
  | scope | member | keyed => rfl
  | converter _ _ _ ih => exact ih
  | behavior _ ih => exact ih

theorem LeadsTo.run_destination (h : LeadsTo ctx t e v d t') : (e.destination ctx v).run t = (.ok d, t') := by
  induction h with
  | scope ho => simp only [destination, run_bind, run_lookUp, ho, run_pure]
  | member he => simp only [destination, run_bind, he, run_pure]
  | keyed he hk => simp only [destination, run_bind, he, hk, run_pure]
  | converter hc hargs _ ih => simp only [destination, run_bind, run_converter, hc, hargs, ih]
  | behavior _ ih => simp only [destination, ih]

/-- A computation that gives a result ran to an end. -/
theorem exists_of_run_bind {α β : Type} {m : Eval α} {f : α → Eval β} {r : β}
    (h : (m >>= f).run t = (.ok r, t')) : ∃ a u, m.run t = (.ok a, u) ∧ (f a).run u = (.ok r, t') := by
  rw [run_bind] at h
  cases hm : m.run t with
  | mk a? u =>
    rw [hm] at h
    cases a? with
    | error x => cases h
    | ok a => exact ⟨a, u, rfl, h⟩

theorem leadsTo_of_run_destination : ∀ {e : Expr} {t : EvalState} {v : Value},
    (e.destination ctx v).run t = (.ok d, t') → LeadsTo ctx t e v d t'
  | .scope n a f, t, v, h => by
    rw [destination] at h
    obtain ⟨o?, u, ho, h⟩ := exists_of_run_bind h
    rw [run_lookUp] at ho
    cases o? with
    | none => cases h
    | some o =>
      cases h
      obtain ⟨hlocated, rfl⟩ := Prod.mk.inj ho
      exact .scope (Except.ok.inj hlocated)
  | .member e n, t, v, h => by
    rw [destination] at h
    obtain ⟨w, u, he, h⟩ := exists_of_run_bind h
    cases w
    case object o =>
      cases h
      exact .member he
    all_goals cases h
  | .keyed e k, t, v, h => by
    rw [destination] at h
    obtain ⟨w, u, he, h⟩ := exists_of_run_bind h
    obtain ⟨key, u', hk, h⟩ := exists_of_run_bind h
    cases w
    case object o =>
      cases h
      exact .keyed he hk
    all_goals cases h
  | .converter e n args, t, v, h => by
    rw [destination] at h
    obtain ⟨c, u, hc, h⟩ := exists_of_run_bind h
    rw [run_converter] at hc
    split at hc
    next hget =>
      cases hc
      obtain ⟨vs, u', hargs, h⟩ := exists_of_run_bind h
      exact .converter hget hargs (leadsTo_of_run_destination h)
    · cases hc
  | .behavior e n args, t, v, h => by
    rw [destination] at h
    exact .behavior (leadsTo_of_run_destination h)
  | .this .., _, _, h | .callScope .., _, _, h | .callMember .., _, _, h | .callFunction .., _, _, h
  | .unary .., _, _, h | .binary .., _, _, h | .conditional .., _, _, h | .assign .., _, _, h | .literal .., _, _, h
  | .array .., _, _, h | .object .., _, _, h | .template .., _, _, h | .taggedTemplate .., _, _, h
  | .interpolation .., _, _, h | .html .., _, _, h | .forOf .., _, _, h | .identifier .., _, _, h
  | .arrayPattern .., _, _, h | .objectPattern .., _, _, h | .streamScope .., _, _, h | .streamMember .., _, _, h
  | .streamTemplate .., _, _, h => by cases h

/-- The place that an expression denotes is where it leads to. -/
theorem leadsTo_iff : LeadsTo ctx t e v d t' ↔ (e.destination ctx v).run t = (.ok d, t') :=
  ⟨LeadsTo.run_destination, leadsTo_of_run_destination⟩

theorem unwatched_evaluate {ctx ctx' : EvalContext} (h : ctx' = { ctx with alive := ctx'.alive }) (e : Expr) :
    Unwatched (fun _ => True) (e.evaluate ctx .nothing) (e.evaluate ctx' .nothing) :=
  (unwatched_rules h).evaluate e (fun _ _ => trivial) (a := ()) ⟨rfl, rfl⟩

theorem unwatched_evaluateAll {ctx ctx' : EvalContext} (h : ctx' = { ctx with alive := ctx'.alive }) (es : List Expr) :
    Unwatched (fun vs => ∀ v ∈ vs, True) (evaluateAll ctx .nothing es) (evaluateAll ctx' .nothing es) :=
  (unwatched_rules h).evaluateAll es (fun _ _ _ _ => trivial) (a := ()) ⟨rfl, rfl⟩

/-- On the way to a place, objects are made and nothing else happens. -/
theorem LeadsTo.makes (h : LeadsTo ctx t e v d t') : Makes t t' := by
  have hctx : ctx = { ctx with alive := ctx.alive } := rfl
  induction h with
  | scope => exact .refl
  | member he => exact (unwatched_evaluate hctx _).makes he
  | keyed he hk => exact ((unwatched_evaluate hctx _).makes he).trans ((unwatched_evaluate hctx _).makes hk)
  | converter _ hargs _ ih => exact ((unwatched_evaluateAll hctx _).makes hargs).trans ih
  | behavior _ ih => exact ih

/-- Where an assignment goes is up to the objects: what streams have delivered, who observes them and which of them are
alive makes no difference. -/
theorem LeadsTo.of_sameObjects {ctx' : EvalContext} (hctx : ctx' = { ctx with alive := ctx'.alive })
    (h : LeadsTo ctx t e v d t') {u : EvalState} (hu : SameObjects t u) :
    ∃ u', LeadsTo ctx' u e v d u' ∧ SameObjects t' u' := by
  induction h generalizing u with
  | @scope t n a f v o ho =>
    refine ⟨u, .scope ?_, hu⟩
    rw [← ho, hctx]
    simp only [located, hu.hasProperty]
  | @member t e n v o t' he =>
    obtain ⟨u', he', hsame⟩ := (unwatched_evaluate hctx e).run he hu
    exact ⟨u', .member he', hsame⟩
  | @keyed t e k v o key t' t'' he hk =>
    obtain ⟨u', he', hsame⟩ := (unwatched_evaluate hctx e).run he hu
    obtain ⟨u'', hk', hsame'⟩ := (unwatched_evaluate hctx k).run hk hsame
    exact ⟨u'', .keyed he' hk', hsame'⟩
  | @converter t e n args v c vs d t' t'' hc hargs _ ih =>
    obtain ⟨u', hargs', hsame⟩ := (unwatched_evaluateAll hctx args).run hargs hu
    obtain ⟨u'', hlead, hsame'⟩ := ih hsame
    exact ⟨u'', .converter (by rw [hctx]; exact hc) hargs' hlead, hsame'⟩
  | behavior _ ih =>
    obtain ⟨u', hlead, hsame⟩ := ih hu
    exact ⟨u', .behavior hlead, hsame⟩

end Expr

namespace Session

open Eval (Makes SameObjects)
open DataBinding.Expr (Destination)

variable {s : Session} {x : Binding} {y : Bound} {z : System} {v : Value} {d : Destination}

/-- An assignment that succeeds makes objects on the way to its place, and writes there. -/
theorem exists_makes_of_assign {i : SystemId} {flags : EvalFlags} {scope : Scope} {host : Option Scope} {e : Expr}
    {v : Value} {r : Reaction} (h : s.assign i flags scope host e v = .ok r) :
    ∃ (z : System) (t : EvalState) (d : Destination), s.systems.get? i = some z ∧
      Makes { store := s.store, registry := z.registry } t ∧
      r = (s.withEval i z t).write d.object d.name d.value := by
  obtain ⟨u, d, hd, rfl⟩ := exists_write_of_assign h
  unfold destination at hd
  cases hz : s.systems.get? i with
  | none => simp [hz] at hd
  | some z =>
    simp only [hz] at hd
    obtain ⟨rfl, hresult⟩ := Prod.mk.inj hd
    exact ⟨z, _, d, rfl, (Expr.leadsTo_of_run_destination (Prod.ext hresult rfl)).makes, rfl⟩

/-! ### Assigning through a binding -/

/-- Assigning `v` through the binding leads to the place `d`. -/
def LeadsTo (s : Session) (x : Binding) (y : Bound) (z : System) (v : Value) (d : Destination) : Prop :=
  ∃ t, x.expression.LeadsTo (s.context x y z) { store := s.store, registry := z.registry } v d t

/-- What becomes of a session when a value is written to a place on the way to which objects may have been made. -/
structure Writes (s : Session) (d : Destination) (t : Session) : Prop where
  written : t.store.property d.object d.name = d.value
  others {p : ObjectId} {n : String} : p.number < s.store.fresh → ¬(p = d.object ∧ n = d.name) →
    t.store.property p n = s.store.property p n
  streams : t.store.streams = s.store.streams
  observers : t.store.observers = s.store.observers
  entries (y : SystemId) (i : StreamId) : t.systems.entryIn y i = s.systems.entryIn y i

/-- Writing a property changes that property of that object. -/
theorem property_write_of_ne (s : Session) {p q : ObjectId} {n m : String} (v : Value) (h : ¬(q = p ∧ m = n)) :
    (s.write p n v).session.store.property q m = s.store.property q m := by
  have hput : (s.store.setObject p ((s.store.object p).put n v)).property q m = s.store.property q m := by
    rw [Store.property, Store.object_setObject]
    split
    next hpq =>
      subst hpq
      rw [Object.get_put, if_neg fun hnm => h ⟨rfl, hnm.symm⟩]
      rfl
    · rfl
  unfold write
  dsimp only
  split
  · refine Eq.trans ?_ hput
    simp only [notify, Store.property, Object.get, (Store.relists_sweep ..).properties]
  · exact hput

theorem streams_write (s : Session) (p : ObjectId) (n : String) (v : Value) :
    (s.write p n v).session.store.streams = s.store.streams := by
  unfold write
  dsimp only
  split <;> rfl

theorem observers_write (s : Session) (p : ObjectId) (n : String) (v : Value) :
    (s.write p n v).session.store.observers = s.store.observers := by
  unfold write
  dsimp only
  split <;> rfl

theorem writes_write (hz : s.systems.get? x.system = some z) {t : EvalState}
    (h : Makes { store := s.store, registry := z.registry } t) (d : Destination) :
    Writes s d ((s.withEval x.system z t).write d.object d.name d.value).session where
  written := property_write ..
  others {p n} hp hne := by
    rw [property_write_of_ne _ _ hne]
    simp only [withEval, Store.property, Store.object, h.objects hp]
  streams := by
    rw [streams_write]
    exact h.streams
  observers := by
    rw [observers_write]
    exact h.observers
  entries i j := by
    rw [systems_write, withEval, entryIn_insert, h.registry]
    split
    next hi =>
      subst hi
      exact (entryIn_of_get? hz j).symm
    · rfl

theorem updateSource_eq (hy : x.state = some y) (hz : s.systems.get? x.system = some z) (v : Value) :
    s.updateSource x v =
      match (x.expression.destination (s.context x y z) v).run { store := s.store, registry := z.registry } with
      | (.ok d, t) => .ok ((s.withEval x.system z t).write d.object d.name d.value)
      | (.error e, _) => .error (.expression e) := by
  have hrun : s.destination x.system x.flags y.scope y.host x.expression v =
      let r := (x.expression.destination (s.context x y z) v).run { store := s.store, registry := z.registry }
      (s.withEval x.system z r.2, r.1) := by
    unfold Session.destination
    rw [hz]
    rfl
  simp only [updateSource, assign, hy, hrun]
  cases (x.expression.destination (s.context x y z) v).run { store := s.store, registry := z.registry } with
  | mk r t => cases r <;> rfl

/-- A bound binding refuses a value iff the assignment leads nowhere, and it leads nowhere if the node that is assigned
to reads through a stream. A value that is not refused is written to the place that the assignment leads to, and no
other property, no stream, no observer and no registry changes with it. Which place that is depends on the objects and
converters alone. -/
theorem updateSource_of_bound (hy : x.state = some y) (hz : s.systems.get? x.system = some z) (v : Value) :
    ((∃ e, s.updateSource x v = .error e) ↔ ∀ d, ¬s.LeadsTo x y z v d) ∧
      (x.expression.assignee.kind.isStreamAware = true → ∃ e, s.updateSource x v = .error e) ∧
      (∀ r, s.updateSource x v = .ok r → ∃ d, s.LeadsTo x y z v d ∧ Writes s d r.session) ∧
      ∀ (u : Session) (z' : System), z'.converters = z.converters → u.store.objects = s.store.objects →
        u.store.fresh = s.store.fresh → ∀ d, s.LeadsTo x y z v d → u.LeadsTo x y z' v d := by
  have heq := updateSource_eq hy hz v
  have hiff : (∃ e, s.updateSource x v = .error e) ↔ ∀ d, ¬s.LeadsTo x y z v d := by
    rw [heq]
    cases hrun : (x.expression.destination (s.context x y z) v).run { store := s.store, registry := z.registry } with
    | mk r t =>
      cases r with
      | error e =>
        refine ⟨fun _ d ⟨t', hlead⟩ => ?_, fun _ => ⟨_, rfl⟩⟩
        rw [hlead.run_destination] at hrun
        cases hrun
      | ok d =>
        refine ⟨(fun ⟨e, he⟩ => by cases he), fun hnone => ?_⟩
        exact absurd ⟨t, Expr.leadsTo_of_run_destination hrun⟩ (hnone d)
  -- no rule leads anywhere from a node that reads through a stream
  refine ⟨hiff, fun hstream => hiff.2 fun d ⟨t, hlead⟩ => ?_, fun r hr => ?_, ?_⟩
  · rw [hlead.not_isStreamAware] at hstream
    cases hstream
  · rw [heq] at hr
    cases hrun : (x.expression.destination (s.context x y z) v).run { store := s.store, registry := z.registry } with
    | mk r? t =>
      rw [hrun] at hr
      cases r? with
      | error e => cases hr
      | ok d =>
        obtain rfl := Except.ok.inj hr
        have hlead := Expr.leadsTo_of_run_destination hrun
        exact ⟨d, ⟨t, hlead⟩, writes_write hz hlead.makes d⟩
  · intro u z' hconverters hobjects hfresh d ⟨t, hlead⟩
    have hctx : u.context x y z' = { s.context x y z with alive := (u.context x y z').alive } := by
      simp only [context, hconverters]
    obtain ⟨t', hlead', -⟩ := hlead.of_sameObjects hctx (u := { store := u.store, registry := z'.registry })
      ⟨hobjects, hfresh⟩
    exact ⟨t', hlead'⟩

/-- A host binds the property of `user` that the latest value of the stream in `key$` names. -/
private def markedKey : List Act :=
  [.command (.makeSubject "s" (some (.text "name"))), .command (.makeObject "user" [("name", .text "Ann")]),
    .command (.makeObject "model" [("user", .object "user"), ("key$", .stream "s")]),
    .command (.makeScope "scope" "model" none none), .command (.makeObject "target" []),
    .command (.makeBinding "b" "main" (.ok (.keyed (.scope "user" 0 false) (.streamScope "key$" 0 false))) "target"
      "value" {}),
    .command (.bind "b" "scope" none), .step, .step]

private def markedScopes : Bound := { scope := ⟨⟨5⟩, ⟨⟨3⟩, ⟨4⟩⟩, []⟩, host := none }

/-- The binding shows the property that the stream's value names. Assigning through it does not fail: it makes a
property whose name is what a stream handle displays as. -/
theorem updateSource_marked_key :
    let s := initial.play markedKey
    (s.store.property ⟨6⟩ "value").text? = some "Ann" ∧
      ∃ x, s.bindings.get? ⟨7⟩ = some x ∧ x.isBound = true ∧ x.expression.isStreamAware = true ∧
        ∃ r, s.updateSource x (.text "Eve") = .ok r ∧
          (r.session.store.property ⟨2⟩ "[object Stream]").text? = some "Eve" := by
  intro s
  have hbefore : (s.store.property ⟨6⟩ "value").text? = some "Ann" := by decide +kernel
  have hafter : ((s.bindings.get? ⟨7⟩).any fun x => x.isBound && (x.expression.isStreamAware &&
      (s.updateSource x (.text "Eve")).toOption.any fun r =>
        (r.session.store.property ⟨2⟩ "[object Stream]").text? = some "Eve")) = true := by decide +kernel
  obtain ⟨x, hx, h⟩ := (Option.any_eq_true _ _).1 hafter
  obtain ⟨hbound, h⟩ := Bool.and_eq_true_iff.1 h
  obtain ⟨haware, h⟩ := Bool.and_eq_true_iff.1 h
  obtain ⟨r, hr, h⟩ := (Option.any_eq_true _ _).1 h
  have hok : s.updateSource x (.text "Eve") = .ok r := by
    cases hu : s.updateSource x (.text "Eve") with
    | error e =>
      rw [hu] at hr
      cases hr
    | ok r' =>
      rw [hu] at hr
      rw [Option.some.inj hr]
  exact ⟨hbefore, x, hx, hbound, haware, r, hok, of_decide_eq_true h⟩

/-- Where that value goes is decided by the objects and by the display text of the handle. -/
theorem updateSource_of_bound_marked_key :
    let s := initial.play markedKey
    ∃ x z r, s.bindings.get? ⟨7⟩ = some x ∧ x.state = some markedScopes ∧ s.systems.get? x.system = some z ∧
      s.updateSource x (.text "Eve") = .ok r ∧
        ∃ d, s.LeadsTo x markedScopes z (.text "Eve") d ∧ Writes s d r.session := by
  intro s
  have hstate : ((s.bindings.get? ⟨7⟩).any fun x => decide (x.state = some markedScopes) &&
      ((s.systems.get? x.system).isSome && (s.updateSource x (.text "Eve")).isOk)) = true := by decide +kernel
  obtain ⟨x, hx, h⟩ := (Option.any_eq_true _ _).1 hstate
  obtain ⟨hbound, h⟩ := Bool.and_eq_true_iff.1 h
  obtain ⟨hsystem, h⟩ := Bool.and_eq_true_iff.1 h
  obtain ⟨z, hz⟩ := Option.isSome_iff_exists.1 hsystem
  have hy := of_decide_eq_true hbound
  cases hr : s.updateSource x (.text "Eve") with
  | error e =>
    rw [hr] at h
    cases h
  | ok r => exact ⟨x, z, r, hx, hy, hz, hr, (updateSource_of_bound hy hz (.text "Eve")).2.2.1 r hr⟩

end Session

end DataBinding
