import DataBinding.Proofs.Moves.Evaluate

/-!
# Evaluating again

What a plain expression evaluates to depends on where its names belong and on what it reads, and on nothing else.
`replays_rules` follows an evaluation beside a later one: as long as names belong where they did, and every property and
stream that was read gives what it gave, the later one reads the same, gives the same, and changes nothing (`Replays`).
An expression is plain unless it asks which properties there are, makes objects or converts values.
-/

namespace DataBinding

/-- Whether a node uses nothing but names, properties, streams and values. -/
def Expr.isPlainNode : Expr → Bool
  | .binary .isIn _ _ | .object .. | .converter .. => false
  | _ => true

/-- Neither `in` nor an object literal nor a converter occurs in the expression. -/
def Expr.IsPlain (e : Expr) : Prop := ∀ d, Occurs d e → d.isPlainNode = true

/-- What a read gives. -/
def Store.valueOf (s : Store) : Read → Value
  | .property o n => s.property o n
  | .stream _ o => Eval.cached s o

namespace Store

/-- Objects and observers have older identities than whatever is made next. -/
structure Tidy (s : Store) : Prop where
  objects {p : ObjectId} : s.Knows (.object p) → p.number < s.fresh
  observers {o : ObserverId} : (s.observers.get? o).isSome → o.number < s.fresh

/-- The objects and the observers that there were are as they were, and nobody has begun to listen to anything. -/
structure Spares (s t : Store) : Prop where
  fresh : s.fresh ≤ t.fresh
  collections : t.collections = s.collections
  objects {p : ObjectId} : s.Knows (.object p) → t.objects.get? p = s.objects.get? p
  observers {o : ObserverId} : (s.observers.get? o).isSome → t.observers.get? o = s.observers.get? o
  listeners (z : Source) : t.listeners z = s.listeners z

variable {s t u : Store}

theorem isLive_congr {o : ObserverId} (h : t.observers.get? o = s.observers.get? o) : t.isLive o = s.isLive o := by
  unfold isLive
  rw [h]

theorem isSome_of_isLive {o : ObserverId} (h : s.isLive o = true) : (s.observers.get? o).isSome := by
  obtain ⟨x, hx, -⟩ := isLive_iff.1 h
  rw [hx]
  rfl

theorem Spares.refl : s.Spares s := ⟨Nat.le_refl _, rfl, fun _ => rfl, fun _ => rfl, fun _ => rfl⟩

theorem Spares.observers_of_isLive (h : s.Spares t) {o : ObserverId} (ho : s.isLive o = true) :
    t.observers.get? o = s.observers.get? o := h.observers (isSome_of_isLive ho)

theorem Spares.isLive (h : s.Spares t) {o : ObserverId} (ho : s.isLive o = true) : t.isLive o = true := by
  rw [isLive_congr (h.observers_of_isLive ho), ho]

theorem Spares.knows (h : s.Spares t) {p : ObjectId} (hp : s.Knows (.object p)) : t.Knows (.object p) := by
  have hp' : (s.objects.get? p).isSome := hp
  rwa [← h.objects hp] at hp'

theorem Spares.trans (h : s.Spares t) (h' : t.Spares u) : s.Spares u where
  fresh := Nat.le_trans h.fresh h'.fresh
  collections := h'.collections.trans h.collections
  objects hp := (h'.objects (h.knows hp)).trans (h.objects hp)
  observers ho := by
    have hsome := ho
    rw [← h.observers ho] at hsome
    exact (h'.observers hsome).trans (h.observers ho)
  listeners z := (h'.listeners z).trans (h.listeners z)

/-- An observer that has just been opened has no listeners. -/
theorem listeners_opened (s : Store) (i : StreamId) : (s.opened i).listeners = {} := by
  have hall : ∀ (x : Observer) (es : List StreamEvent), (x.receiveAll es).listeners = x.listeners := by
    intro x es
    unfold Observer.receiveAll
    induction es generalizing x with
    | nil => rfl
    | cons e es ih => rw [List.foldl_cons, ih, Observer.receive_listeners]
  exact hall {} (s.greeting i)

theorem Tidy.openObserver (h : s.Tidy) (i : StreamId) : (s.openObserver i).1.Tidy ∧ s.Spares (s.openObserver i).1 := by
  have hf : (s.openObserver i).1.fresh = s.fresh + 1 := fresh_openObserver s i
  have hnew : s.observers.get? ⟨s.fresh⟩ = none := by
    cases ho : s.observers.get? ⟨s.fresh⟩ with
    | none => rfl
    | some x => exact absurd (h.observers (by rw [ho]; rfl)) (Nat.lt_irrefl _)
  have hget := observers_openObserver s i
  refine ⟨⟨fun {p} hp => ?_, fun {o} ho => ?_⟩,
    ⟨hf ▸ Nat.le_succ _, by rw [openObserver_eq], fun {p} _ => ?_, fun {o} ho => ?_, fun z => ?_⟩⟩
  · rw [openObserver_eq] at hp
    exact hf ▸ Nat.lt_succ_of_lt (h.objects hp)
  · rw [hget] at ho
    split at ho
    next he => exact hf ▸ he ▸ Nat.lt_succ_self _
    · exact hf ▸ Nat.lt_succ_of_lt (h.observers ho)
  · rw [openObserver_eq]
  · rw [hget]
    split
    next he =>
      subst he
      rw [hnew] at ho
      cases ho
    · rfl
  · cases z with
    | observer o =>
      simp only [listeners, hget]
      by_cases he : ⟨s.fresh⟩ = o
      · subst he
        simp [hnew, listeners_opened]
      · simp [he]
    | property | collection => rw [openObserver_eq]; rfl

theorem Tidy.newObject (h : s.Tidy) (ps : Table String Value) : (s.newObject ps).1.Tidy ∧ s.Spares (s.newObject ps).1 := by
  have hnew : s.objects.get? ⟨s.fresh⟩ = none := by
    cases hp : s.objects.get? ⟨s.fresh⟩ with
    | none => rfl
    | some x => exact absurd (h.objects (p := ⟨s.fresh⟩) (by simp [Knows, hp])) (Nat.lt_irrefl _)
  refine ⟨⟨fun {p} hp => ?_, fun ho => Nat.lt_succ_of_lt (h.observers ho)⟩,
    ⟨Nat.le_succ _, rfl, fun {p} hp => ?_, fun _ => rfl, fun z => ?_⟩⟩
  · simp only [Knows, Store.newObject, Table.get?_insert] at hp
    split at hp
    next he => exact he ▸ Nat.lt_succ_self _
    · exact Nat.lt_succ_of_lt (h.objects hp)
  · simp only [Store.newObject, Table.get?_insert]
    split
    next he =>
      subst he
      exact absurd (h.objects hp) (Nat.lt_irrefl _)
    · rfl
  · cases z with
    | property p n =>
      simp only [listeners, object, Store.newObject, Table.get?_insert]
      by_cases he : ⟨s.fresh⟩ = p
      · subst he
        simp [hnew]
      · simp [he]
    | observer | collection => rfl

end Store

namespace Eval

/-! ### What any evaluation leaves alone -/

/-- What there was is as it was, and whatever observer was opened has been read through. -/
structure Adds (a b : EvalState) : Prop where
  spares : a.store.Spares b.store
  reads : a.reads <+: b.reads
  live {o : ObserverId} : b.store.isLive o = true → a.store.isLive o = true ∨ ∃ i, .stream i o ∈ b.reads

theorem Adds.refl {a : EvalState} : Adds a a := ⟨.refl, List.prefix_refl _, .inl⟩

theorem Adds.trans {a b c : EvalState} (h : Adds a b) (h' : Adds b c) : Adds a c where
  spares := h.spares.trans h'.spares
  reads := h.reads.trans h'.reads
  live ho := by
    rcases h'.live ho with ho | ho
    · exact (h.live ho).imp_right fun ⟨i, hi⟩ => ⟨i, h'.reads.subset hi⟩
    · exact .inr ho

/-- The computation leaves alone what there is, and of its result `Q` holds. -/
def LeavesAlone {α : Type} (Q : α → Prop) (m : Eval α) : Prop :=
  ∀ a : EvalState, a.store.Tidy → (m.run a).2.store.Tidy ∧ Adds a (m.run a).2 ∧ ∀ r, (m.run a).1 = .ok r → Q r

section

variable {α β : Type} {Q : α → Prop} {Q' : β → Prop}

theorem LeavesAlone.bind {m : Eval α} {f : α → Eval β} (hm : LeavesAlone Q m) (hf : ∀ r, Q r → LeavesAlone Q' (f r)) :
    LeavesAlone Q' (m >>= f) := by
  intro a ha
  obtain ⟨hb, hab, hr⟩ := hm a ha
  rw [run_bind]
  cases hrun : m.run a with
  | mk r? b =>
    rw [hrun] at hb hab hr
    cases r? with
    | error x => exact ⟨hb, hab, fun _ h => by cases h⟩
    | ok r =>
      obtain ⟨hc, hbc, hr'⟩ := hf r (hr r rfl) b hb
      exact ⟨hc, hab.trans hbc, hr'⟩

/-- An operation that does not change the state. -/
theorem LeavesAlone.of_state {m : Eval α} (h : ∀ a, (m.run a).2 = a ∧ ∀ r, (m.run a).1 = .ok r → Q r) :
    LeavesAlone Q m := by
  intro a ha
  obtain ⟨hs, hr⟩ := h a
  rw [hs]
  exact ⟨ha, .refl, hr⟩

end

theorem leavesAlone_readValue (w : Watch) (p : ObjectId) (n : String) :
    LeavesAlone (fun _ => True) (readValue w p n) := by
  intro a ha
  rw [run_readValue]
  refine ⟨ha, ⟨.refl, ?_, .inl⟩, fun _ _ => trivial⟩
  unfold reported
  dsimp only
  split
  · exact List.prefix_append ..
  · exact List.prefix_refl _

theorem leavesAlone_readStream (ctx : EvalContext) (i : StreamId) :
    LeavesAlone (fun _ => True) (readStream ctx i) := by
  intro a ha
  rw [run_readStream]
  cases hr : a.registry.get? a.store i with
  | some o =>
    rw [Registry.observerFor_of_get? hr]
    exact ⟨ha, ⟨.refl, List.prefix_append .., .inl⟩, fun _ _ => trivial⟩
  | none =>
    rw [Registry.observerFor_of_none hr]
    obtain ⟨hb, hab⟩ := ha.openObserver i
    refine ⟨hb, ⟨hab, List.prefix_append .., fun {o} ho => ?_⟩, fun _ _ => trivial⟩
    rw [Store.isLive_openObserver, Bool.or_eq_true, beq_iff_eq] at ho
    rcases ho with rfl | ho
    · exact .inr ⟨i, List.mem_append_right _ (List.mem_singleton_self _)⟩
    · exact .inl ho

theorem leavesAlone_newObject (es : List (String × Value)) : LeavesAlone (fun _ => True) (newObject es) := by
  intro a ha
  rw [run_newObject]
  obtain ⟨hb, hab⟩ := ha.newObject (Table.ofList es)
  exact ⟨hb, ⟨hab, List.prefix_refl _, .inl⟩, fun _ _ => trivial⟩

/-- The rules by which evaluations leave alone what there is. -/
theorem leavesAlone_rules (ctx : EvalContext) :
    Rules (fun _ _ : Unit => True) ctx ctx (· = ·) (fun _ => True) (fun _ _ => True)
      (fun _ Q m _ => LeavesAlone (Q ()) m) :=
  rules_alone ctx .bind .of_state leavesAlone_readValue (leavesAlone_readStream ctx) leavesAlone_newObject

/-! ### What plain expressions leave alone -/

open Session (sharedIn sharedInAll sharedInAll_eq)

variable {start t u a b c : EvalState} {i : StreamId} {o : ObserverId} {v : Value}

/-- Reads are added, and objects are left alone. -/
structure Grows (a b : EvalState) : Prop where
  spares : a.store.Spares b.store
  objects : b.store.objects = a.store.objects
  reads : a.reads <+: b.reads

theorem Grows.refl : Grows a a := ⟨.refl, rfl, List.prefix_refl _⟩

theorem Grows.trans (h : Grows a b) (h' : Grows b c) : Grows a c where
  spares := h.spares.trans h'.spares
  objects := h'.objects.trans h.objects
  reads := h.reads.trans h'.reads

theorem property_congr {s s' : Store} (h : s'.objects = s.objects) (p : ObjectId) (n : String) :
    s'.property p n = s.property p n := by
  simp only [Store.property, Store.object, h]

theorem located_congr {ctx : EvalContext} {s s' : Store} (h : s'.objects = s.objects) (n : String) (k : UInt32)
    (f : Bool) : located ctx s' n k f = located ctx s n k f := by
  have hp : s'.hasProperty = s.hasProperty := by
    funext p m
    simp only [Store.hasProperty, Store.object, h]
  simp only [located, hp]

/-- Something that was read holds the stream. -/
def Sourced (a : EvalState) (i : StreamId) : Prop := ∃ r ∈ a.reads, .stream i ∈ sharedIn (a.store.valueOf r)

/-- An evaluation that began at `start` has come to `a`: it reads through live observers, and through streams that it
has come across in something that it read. -/
structure Going (start a : EvalState) : Prop where
  grows : Grows start a
  tidy : a.store.Tidy
  live {i : StreamId} {o : ObserverId} : .stream i o ∈ a.reads → a.store.isLive o = true
  sourced {i : StreamId} {o : ObserverId} : .stream i o ∈ a.reads → Sourced a i

/-- What was read goes on to give what it gave. -/
theorem Going.valueOf (ha : Going start a) (h : Grows a b) {r : Read} (hr : r ∈ a.reads) :
    b.store.valueOf r = a.store.valueOf r := by
  cases r with
  | property p n => exact property_congr h.objects p n
  | stream i o => simp only [Store.valueOf, cached, h.spares.observers_of_isLive (ha.live hr)]

theorem Going.sourced_mono (ha : Going start a) (h : Grows a b) (hi : Sourced a i) : Sourced b i := by
  obtain ⟨r, hr, hv⟩ := hi
  exact ⟨r, h.reads.subset hr, by rwa [ha.valueOf h hr]⟩

/-- Every stream in the value was come across in something that was read. -/
def Known (a : EvalState) (v : Value) : Prop := ∀ i, .stream i ∈ sharedIn v → Sourced a i

theorem known_of_read {r : Read} (hr : r ∈ a.reads) (hv : a.store.valueOf r = v) : Known a v :=
  fun _ hi => ⟨r, hr, hv ▸ hi⟩

/-! ### Reading the same again -/

/-- In `u`, whatever `b` has read can be read again and gives the same. -/
structure Agrees (b u : EvalState) : Prop where
  value {r : Read} : r ∈ b.reads → u.store.valueOf r = b.store.valueOf r
  entry {i : StreamId} {o : ObserverId} : .stream i o ∈ b.reads → u.registry.get? u.store i = some o

/-- In `u`, the computation gives `r` and reads what was read between `a` and `b`. -/
def Repeats (u a b : EvalState) {α : Type} (r : α) (m : Eval α) : Prop :=
  ∃ new, b.reads = a.reads ++ new ∧ ∀ reads, m.run { u with reads } = (.ok r, { u with reads := reads ++ new })

/-- From `a`, the computation `m` goes on, and of its result `Q` holds; and `m'` repeats it in `u`, if `u` agrees with
the end. -/
def Replays (start u : EvalState) {α : Type} (a : EvalState) (Q : EvalState → α → Prop) (m m' : Eval α) : Prop :=
  Going start a → Going start (m.run a).2 ∧ Grows a (m.run a).2 ∧
    ∀ r, (m.run a).1 = .ok r → Q (m.run a).2 r ∧ (Agrees (m.run a).2 u → Repeats u a (m.run a).2 r m')

theorem Agrees.of_grows (hb : Going start b) (h : Grows b c) (hc : Agrees c u) : Agrees b u where
  value hr := (hc.value (h.reads.subset hr)).trans (hb.valueOf h hr)
  entry hr := hc.entry (h.reads.subset hr)

section

variable {α β : Type} {Q : EvalState → α → Prop} {Q' : EvalState → β → Prop}

theorem Replays.pure {r : α} (h : Q a r) : Replays start u a Q (pure r) (pure r) := by
  refine fun ha => ⟨ha, .refl, fun r' hr => ?_⟩
  obtain rfl := Except.ok.inj hr
  exact ⟨h, fun _ => ⟨[], by simp, fun reads => by simp⟩⟩

theorem Replays.throw (x : ExpressionError) : Replays start u a Q (throw x : Eval α) (throw x) :=
  fun ha => ⟨ha, .refl, fun _ hr => by cases hr⟩

theorem Replays.bind {m m' : Eval α} {f f' : α → Eval β} (hm : Replays start u a Q m m')
    (hf : ∀ b r, Going start a ∧ Grows a b → Q b r → Replays start u b Q' (f r) (f' r)) :
    Replays start u a Q' (m >>= f) (m' >>= f') := by
  intro ha
  obtain ⟨hb, hab, hr⟩ := hm ha
  rw [run_bind]
  cases hrun : m.run a with
  | mk r? b =>
    rw [hrun] at hb hab hr
    cases r? with
    | error x => exact ⟨hb, hab, fun _ h => by cases h⟩
    | ok r =>
      obtain ⟨hq, hrep⟩ := hr r rfl
      obtain ⟨hc, hbc, hr'⟩ := hf b r ⟨ha, hab⟩ hq hb
      refine ⟨hc, hab.trans hbc, fun r' h => ?_⟩
      obtain ⟨hq', hrep'⟩ := hr' r' h
      refine ⟨hq', fun hagree => ?_⟩
      obtain ⟨new, hnew, hnewrun⟩ := hrep (hagree.of_grows hb hbc)
      obtain ⟨more, hmore, hmorerun⟩ := hrep' hagree
      refine ⟨new ++ more, by rw [hmore, hnew, List.append_assoc], fun reads => ?_⟩
      rw [run_bind, hnewrun, ← List.append_assoc]
      exact hmorerun _

end

theorem Going.read (ha : Going start a) {r : Read} (hlive : ∀ i o, r = .stream i o → a.store.isLive o = true)
    (hsourced : ∀ i o, r = .stream i o → Sourced a i) :
    Going start { a with reads := a.reads ++ [r] } ∧ Grows a { a with reads := a.reads ++ [r] } := by
  have hgrows : Grows a { a with reads := a.reads ++ [r] } := ⟨.refl, rfl, List.prefix_append ..⟩
  refine ⟨⟨ha.grows.trans hgrows, ha.tidy, fun {i o} h => ?_, fun {i o} h => ?_⟩, hgrows⟩
  · rcases List.mem_append.1 h with h | h
    · exact ha.live h
    · exact hlive i o (List.mem_singleton.1 h).symm
  · rcases List.mem_append.1 h with h | h
    · exact ha.sourced_mono hgrows (ha.sourced h)
    · exact ha.sourced_mono hgrows (hsourced i o (List.mem_singleton.1 h).symm)

theorem replays_readValue (p : ObjectId) (n : String) :
    Replays start u a Known (readValue .everything p n) (readValue .everything p n) := by
  intro ha
  rw [run_readValue]
  obtain ⟨hgoing, hgrows⟩ := ha.read (r := .property p n) (fun _ _ h => by cases h) (fun _ _ h => by cases h)
  refine ⟨hgoing, hgrows, fun v hv => ?_⟩
  obtain rfl := Except.ok.inj hv
  have hmem : Read.property p n ∈ reported .everything a.reads p n := by simp [reported]
  refine ⟨known_of_read hmem rfl, fun hagree => ⟨[.property p n], rfl, fun reads => ?_⟩⟩
  rw [run_readValue]
  have hsame : u.store.property p n = a.store.property p n := hagree.value hmem
  exact Prod.ext (congrArg Except.ok hsame) rfl

theorem Going.opened (ha : Going start a) (r : Registry) (i : StreamId) :
    Going start { a with store := (a.store.openObserver i).1, registry := r } ∧
      Grows a { a with store := (a.store.openObserver i).1, registry := r } := by
  obtain ⟨htidy, hspares⟩ := ha.tidy.openObserver i
  have hgrows : Grows a { a with store := (a.store.openObserver i).1, registry := r } :=
    ⟨hspares, by rw [Store.openObserver_eq], List.prefix_refl _⟩
  exact ⟨⟨ha.grows.trans hgrows, htidy, fun h => hspares.isLive (ha.live h),
    fun h => ha.sourced_mono hgrows (ha.sourced h)⟩, hgrows⟩

theorem replays_readStream {ctx ctx' : EvalContext} (hi : Sourced a i) :
    Replays start u a Known (readStream ctx i) (readStream ctx' i) := by
  intro ha
  rw [run_readStream]
  obtain ⟨hgoing, hgrows⟩ : Going start { a with
        store := (a.registry.observerFor ctx.alive a.store i).1
        registry := (a.registry.observerFor ctx.alive a.store i).2.1 } ∧
      Grows a { a with
        store := (a.registry.observerFor ctx.alive a.store i).1
        registry := (a.registry.observerFor ctx.alive a.store i).2.1 } := by
    cases hr : a.registry.get? a.store i with
    | some o =>
      rw [Registry.observerFor_of_get? hr]
      exact ⟨ha, .refl⟩
    | none =>
      rw [Registry.observerFor_of_none hr]
      exact ha.opened _ i
  have hlive := Registry.isLive_observerFor ctx.alive a.store a.registry i
  generalize a.registry.observerFor ctx.alive a.store i = x at hgoing hgrows hlive
  obtain ⟨s, r, o⟩ := x
  obtain ⟨hgoing', hgrows'⟩ := hgoing.read (r := .stream i o)
    (fun j p h => by obtain ⟨rfl, rfl⟩ := Read.stream.inj h; exact hlive)
    (fun j p h => by obtain ⟨rfl, rfl⟩ := Read.stream.inj h; exact ha.sourced_mono hgrows hi)
  refine ⟨hgoing', hgrows.trans hgrows', fun v hv => ?_⟩
  obtain rfl := Except.ok.inj hv
  -- the later registry has the observer already, so nothing is opened there
  have hmem : Read.stream i o ∈ a.reads ++ [Read.stream i o] := by simp
  refine ⟨known_of_read hmem rfl, fun hagree => ⟨[.stream i o], rfl, fun reads => ?_⟩⟩
  have hsame : cached u.store o = cached s o := hagree.value hmem
  rw [run_readStream, Registry.observerFor_of_get? (hagree.entry hmem)]
  exact Prod.ext (congrArg Except.ok hsame) rfl

theorem binary_of_ne_isIn {op : BinaryOp} (hop : op ≠ .isIn) (has has' : ObjectId → String → Bool) (x y : Value) :
    Operator.binary has' op x y = Operator.binary has op x y := by
  cases op
  case isIn => exact absurd rfl hop
  all_goals rfl

theorem known_of_none {v : Value} (h : ∀ i, .stream i ∉ sharedIn v) : Known a v := fun i hi => absurd hi (h i)

theorem known_orEmpty (h : Known a v) : Known a v.orEmpty := by
  unfold Value.orEmpty
  split
  · exact known_of_none (by simp [sharedIn])
  · exact h

/-- The rules by which an evaluation is repeated in `u`. -/
theorem replays_rules {ctx ctx' : EvalContext} {e : Expr} (hflags : ctx'.flags = ctx.flags)
    (hscope : ctx'.scope = ctx.scope) (hleaf : ctx.flags.leafOnly = false) (he : e.IsPlain)
    (hlocated : ∀ n k f, Expr.Occurs (.scope n k f) e ∨ Expr.Occurs (.streamScope n k f) e →
      located ctx' u.store n k f = located ctx start.store n k f) :
    Rules (fun a b => Going start a ∧ Grows a b) ctx ctx' (fun w w' => w = .everything ∧ w' = .everything)
      (fun d => Expr.Occurs d e) Known (Replays start u) where
  strict := by rw [hflags]
  scope := hscope
  watchObject := by
    rintro w w' ⟨rfl, rfl⟩
    simp [watchObject, hflags, hleaf]
  mono h hv i hi := h.1.sourced_mono h.2 (hv i hi)
  plain hv := known_of_none (by simp [hv])
  items := by
    simp only [Known, sharedIn, sharedInAll_eq, List.mem_flatMap]
    exact ⟨fun h v hv i hi => h i ⟨v, hv, hi⟩, fun h i ⟨v, hv, hi⟩ => h v hv i hi⟩
  level _ := known_of_none (by simp [sharedIn])
  pure := .pure
  throw := .throw
  bind := .bind
  lookUp {a n k f} hd ha := by
    rw [run_lookUp]
    refine ⟨ha, .refl, fun o? ho => ⟨fun o _ => known_of_none (by simp [sharedIn]), fun _ => ⟨[], by simp, fun reads => ?_⟩⟩⟩
    obtain rfl := Except.ok.inj ho
    rw [run_lookUp, hlocated n k f hd, located_congr ha.grows.objects, List.append_nil]
  readValue := by
    rintro a w w' p n ⟨rfl, rfl⟩ -
    exact replays_readValue p n
  readThrough := by
    rintro a w w' v ⟨rfl, rfl⟩ hv
    cases hs : v.stream? with
    | none =>
      rw [readThrough_of_not_stream ctx _ hs, readThrough_of_not_stream ctx' _ hs]
      exact .pure (known_orEmpty hv)
    | some i =>
      obtain rfl := Value.eq_of_stream? hs
      rw [readThrough_stream ctx (by decide), readThrough_stream ctx' (by decide)]
      exact .bind (replays_readStream (hv i (by simp [sharedIn]))) fun b x _ hx => .pure (known_orEmpty hx)
  operate {a op l r x y} hd _ _ ha := by
    have hop : op ≠ .isIn := by
      rintro rfl
      exact absurd (he _ hd) (by simp [Expr.isPlainNode])
    refine ⟨ha, .refl, fun v hv => ?_⟩
    obtain rfl : Operator.binary a.store.hasProperty op x y = v := Except.ok.inj hv
    refine ⟨known_of_none (by simp [sharedIn_binary]), fun _ => ⟨[], (List.append_nil _).symm, fun reads => ?_⟩⟩
    rw [binary_of_ne_isIn hop u.store.hasProperty, List.append_nil]
    rfl
  newObject hd := absurd (he _ hd) (by simp [Expr.isPlainNode])
  converter hd := absurd (he _ hd) (by simp [Expr.isPlainNode])

end Eval

/-! ### Evaluating what is bound -/

/-- The object that a name belongs to for what is bound to the scopes. -/
def Bound.located (y : Bound) (s : Store) (name : String) (ancestor : UInt32) (fromHost : Bool) : Option ObjectId :=
  Eval.located { flags := {}, scope := y.scope, host := y.host, converters := ∅, alive := fun _ => false } s name ancestor
    fromHost

/-- Every access to a scope that occurs in the expression leads where it did. -/
def Bound.Finds (y : Bound) (e : Expr) (s t : Store) : Prop :=
  ∀ n k f, Expr.Occurs (.scope n k f) e ∨ Expr.Occurs (.streamScope n k f) e → y.located t n k f = y.located s n k f

/-- A binding that is told of whatever it depends on: its expression is plain, and all that it reads is reported. -/
structure Binding.IsTracked (x : Binding) : Prop where
  plain : x.expression.IsPlain
  every : x.flags.leafOnly = false

namespace Session

variable {s s' t : Session} {x : Binding} {y : Bound} {reads : List Read} {v : Value}

/-- Evaluates a binding's expression in the scopes that it is bound to. -/
def evaluateBound (s : Session) (x : Binding) (y : Bound) : Session × List Read × Except ExpressionError Value :=
  s.evaluate x.system x.flags y.scope y.host .everything x.expression

/-- What an evaluation of a bound binding depends on besides the store. -/
def context (s : Session) (x : Binding) (y : Bound) (z : System) : EvalContext :=
  { flags := x.flags, scope := y.scope, host := y.host, converters := z.converters, alive := s.isAlive }

theorem evaluateBound_eq {z : System} (hz : s.systems.get? x.system = some z) (y : Bound) :
    s.evaluateBound x y =
      let r := (x.expression.evaluate (s.context x y z) .everything).run { store := s.store, registry := z.registry }
      (s.withEval x.system z r.2, r.2.reads, r.1) := by
  unfold evaluateBound evaluate
  rw [hz]
  rfl

/-- A binding begins a round, in which it observes what it reads. -/
def nextRound (s : Session) (b : BindingId) : Session :=
  s.modifyBinding b fun x => { x with observations := x.observations.nextRound }

theorem readAgain_eq (s : Session) (b : BindingId) (x : Binding) (y : Bound) :
    s.readAgain b x y =
      (((s.nextRound b).evaluateBound x y).1.observe b ((s.nextRound b).evaluateBound x y).2.1,
        ((s.nextRound b).evaluateBound x y).2.2) := rfl

/-- Whatever is evaluated, what there is stays as it is, and whatever observer was opened has been read through. -/
structure EvaluatesTo (s s' : Session) (reads : List Read) : Prop where
  spares : s.store.Spares s'.store
  live {o : ObserverId} : s'.store.isLive o = true → s.store.isLive o = true ∨ ∃ i, .stream i o ∈ reads

theorem evaluatesTo_evaluate (h : s.store.Tidy) (i : SystemId) (flags : EvalFlags) (scope : Scope) (host : Option Scope)
    (w : Watch) (e : Expr) :
    EvaluatesTo s (s.evaluate i flags scope host w e).1 (s.evaluate i flags scope host w e).2.1 := by
  unfold evaluate
  split
  · exact ⟨.refl, .inl⟩
  next z hz =>
    have hrules := Eval.leavesAlone_rules { flags, scope, host, converters := z.converters, alive := s.isAlive }
    obtain ⟨-, hadds, -⟩ := hrules.evaluate e (fun _ _ => trivial) (a := ()) (w := w) rfl
      { store := s.store, registry := z.registry } h
    exact ⟨hadds.spares, hadds.live⟩

theorem evaluatesTo_evaluateBound (h : s.store.Tidy) (x : Binding) (y : Bound) :
    EvaluatesTo s (s.evaluateBound x y).1 (s.evaluateBound x y).2.1 :=
  evaluatesTo_evaluate h ..

/-- What was read to come to `s` can be read again in `t` and gives the same. -/
structure Rereads (i : SystemId) (reads : List Read) (s t : Session) : Prop where
  value {r : Read} : r ∈ reads → t.store.valueOf r = s.store.valueOf r
  entry {j : StreamId} {o : ObserverId} : .stream j o ∈ reads → t.systems.entryIn i j = some o
  live {j : StreamId} {o : ObserverId} : .stream j o ∈ reads → t.store.isLive o = true

/-- An evaluation of a plain expression, and what has been read. -/
structure Evaluated (s : Session) (x : Binding) (y : Bound) (s' : Session) (reads : List Read) (v : Value) : Prop where
  objects : s'.store.objects = s.store.objects
  /-- A stream that was read through was come across in something that was read. -/
  sourced {j : StreamId} {o : ObserverId} : .stream j o ∈ reads → ∃ r ∈ reads, .stream j ∈ sharedIn (s'.store.valueOf r)
  again {t : Session} : (t.systems.get? x.system).isSome → y.Finds x.expression s.store t.store →
    Rereads x.system reads s' t → t.evaluateBound x y = (t, reads, .ok v)

theorem evaluated_of_evaluateBound (h : s.store.Tidy) (hx : x.IsTracked) (hz : (s.systems.get? x.system).isSome)
    (he : s.evaluateBound x y = (s', reads, .ok v)) : Evaluated s x y s' reads v := by
  obtain ⟨z, hz⟩ := Option.isSome_iff_exists.1 hz
  let start : EvalState := { store := s.store, registry := z.registry }
  have hstart : Eval.Going start start := ⟨.refl, h, (fun hr => by cases hr), (fun hr => by cases hr)⟩
  have hreplays : ∀ (u : EvalState) (ctx' : EvalContext), ctx'.flags = x.flags → ctx'.scope = y.scope →
      (∀ n k f, Expr.Occurs (.scope n k f) x.expression ∨ Expr.Occurs (.streamScope n k f) x.expression →
        Eval.located ctx' u.store n k f = y.located s.store n k f) →
      Eval.Replays start u start Eval.Known (x.expression.evaluate (s.context x y z) .everything)
        (x.expression.evaluate ctx' .everything) := by
    intro u ctx' hflags hscope hl
    have hrules : Eval.Rules (fun a b => Eval.Going start a ∧ Eval.Grows a b) (s.context x y z) ctx'
        (fun w w' => w = .everything ∧ w' = .everything) (fun d => Expr.Occurs d x.expression) Eval.Known
        (Eval.Replays start u) := Eval.replays_rules hflags hscope hx.every hx.plain hl
    exact hrules.evaluate x.expression (fun _ hd => hd) ⟨rfl, rfl⟩
  rw [evaluateBound_eq hz] at he
  cases hrun : (x.expression.evaluate (s.context x y z) .everything).run start with
  | mk r b =>
    rw [hrun] at he
    simp only [Prod.mk.injEq] at he
    obtain ⟨rfl, rfl, rfl⟩ := he
    -- what the evaluation itself does is what it does beside its own repetition
    obtain ⟨hb, hgrows, -⟩ := hreplays start (s.context x y z) rfl rfl (fun _ _ _ _ => rfl) hstart
    rw [hrun] at hb hgrows
    constructor
    case objects => exact hgrows.objects
    case sourced => exact hb.sourced
    case again =>
      intro t hzt hfinds hr
      obtain ⟨z', hz'⟩ := Option.isSome_iff_exists.1 hzt
      obtain ⟨-, -, hok⟩ := hreplays { store := t.store, registry := z'.registry } (t.context x y z') rfl rfl hfinds
        hstart
      rw [hrun] at hok
      have hentry : ∀ {j o}, .stream j o ∈ b.reads → z'.registry.get? t.store j = some o := by
        intro j o ho
        have hentry := hr.entry ho
        rw [entryIn_of_get? hz'] at hentry
        exact Registry.get?_eq_some.2 ⟨hentry, hr.live ho⟩
      have hagrees : Eval.Agrees b { store := t.store, registry := z'.registry } := ⟨hr.value, hentry⟩
      obtain ⟨new, hnew, hrepeat⟩ := (hok v rfl).2 hagrees
      rw [evaluateBound_eq hz', hrepeat []]
      have hreads : b.reads = [] ++ new := hnew
      rw [hreads]
      simp only [withEval, Table.insert_of_get? hz']

end Session

end DataBinding
