import DataBinding.Expr.Rebase
import DataBinding.Proofs.EvaluationRules
import DataBinding.Proofs.Opening

/-!
# What a rebased expression means

`evaluateReading` is evaluation with another idea of what a property holds; with the store's own idea it is `evaluate`
(`evaluateReading_property`). A rebased expression evaluates as the expression it comes from would if every property
with a marked name held the latest value of its stream (`evaluate_rebase`). That value is well defined because opening
the observer of one stream changes the latest value of none (`latest_observerFor`).
-/

namespace DataBinding

open Eval (cached located reported)

/-! ### The latest value of a stream -/

/-- The latest value of a stream, as the observer has it that the registry hands out. -/
def Registry.latest (alive : StreamId → Bool) (s : Store) (r : Registry) (i : StreamId) : Value :=
  cached (r.observerFor alive s i).1 (r.observerFor alive s i).2.2

/-- The identities of a store's observers and of those in a registry were taken before. -/
structure Registry.Known (s : Store) (r : Registry) : Prop where
  observers {o : ObserverId} {x : Observer} : s.observers.get? o = some x → o.number < s.fresh
  entries {i : StreamId} {o : ObserverId} : r.entries.get? i = some o → o.number < s.fresh

namespace Registry

variable {alive : StreamId → Bool} {s : Store} {r : Registry}

theorem latest_of_get? {i : StreamId} {o : ObserverId} (h : r.get? s i = some o) :
    r.latest alive s i = cached s o := by
  unfold latest
  rw [observerFor_of_get? h]

theorem latest_of_none {i : StreamId} (h : r.get? s i = none) :
    r.latest alive s i = (({} : Observer).receiveAll (s.greeting i)).value := by
  unfold latest
  rw [observerFor_of_none h]
  simp [cached, Store.openObserver_eq, Table.get?_insert, Store.opened]

theorem entries_observerFor {i j : StreamId} {o : ObserverId}
    (h : (r.observerFor alive s i).2.1.entries.get? j = some o) :
    o.number < (r.observerFor alive s i).1.fresh ∨ r.entries.get? j = some o := by
  cases hi : r.get? s i with
  | some p =>
    rw [observerFor_of_get? hi] at h
    exact .inr h
  | none =>
    rw [observerFor_of_none hi] at h ⊢
    simp only [Table.get?_insert] at h
    split at h
    · obtain rfl : (⟨s.fresh⟩ : ObserverId) = o := by simpa using h
      exact .inl (by simp [Store.openObserver_eq])
    · exact .inr (entries_swept h)

theorem Known.observerFor (hk : Known s r) (alive : StreamId → Bool) (i : StreamId) :
    Known (r.observerFor alive s i).1 (r.observerFor alive s i).2.1 := by
  have hf : s.fresh ≤ (r.observerFor alive s i).1.fresh := fresh_observerFor alive s r i
  constructor
  · intro o x ho
    cases hi : r.get? s i with
    | some p =>
      rw [observerFor_of_get? hi] at ho ⊢
      exact hk.observers ho
    | none =>
      rw [observerFor_of_none hi] at ho ⊢
      simp only [Store.openObserver_eq, Table.get?_insert] at ho ⊢
      split at ho
      next he => simp [← he]
      · exact Nat.lt_succ_of_lt (hk.observers ho)
  · intro j o ho
    rcases entries_observerFor ho with h | h
    · exact h
    · exact Nat.lt_of_lt_of_le (hk.entries h) hf

theorem objects_observerFor (alive : StreamId → Bool) (s : Store) (r : Registry) (i : StreamId) :
    (r.observerFor alive s i).1.objects = s.objects := by
  cases hi : r.get? s i with
  | some o => rw [observerFor_of_get? hi]
  | none => rw [observerFor_of_none hi, Store.openObserver_eq]

/-- Handing out the observer of one stream leaves the latest value of every stream that is alive. -/
theorem latest_observerFor (hk : Known s r) (i : StreamId) {j : StreamId} (hj : alive j = true) :
    (r.observerFor alive s i).2.1.latest alive (r.observerFor alive s i).1 j = r.latest alive s j := by
  cases hi : r.get? s i with
  | some o => rw [observerFor_of_get? hi]
  | none =>
    by_cases hij : i = j
    · subst hij
      exact latest_of_get? (get?_observerFor alive s r i)
    cases hj' : r.get? s j with
    | some p =>
      obtain ⟨x, hx, -⟩ := Store.isLive_iff.1 (get?_eq_some.1 hj').2
      have hne : (⟨s.fresh⟩ : ObserverId) ≠ p := fun he => Nat.ne_of_gt (hk.observers hx) (congrArg Id.number he)
      rw [latest_of_get? (get?_observerFor_of_get? hj' hj), latest_of_get? hj', observerFor_of_none hi]
      simp [cached, Store.observers_openObserver, hne]
    | none =>
      rw [latest_of_none (get?_observerFor_of_none hk.entries hij hj'), latest_of_none hj', observerFor_of_none hi]
      simp [Store.greeting, Store.streams_openObserver, hij]

end Registry

/-! ### Evaluation with another reading of properties -/

namespace Expr

open Eval

/-- Reads a property of which `read` says what it holds, and reports that it did. -/
def readWith (read : Store → ObjectId → String → Value) (w : Watch) (o : ObjectId) (n : String) : Eval Value := do
  readProperty w o n
  return read (← Eval.store) o n

mutual

/-- The value of an expression when `read` says what a property holds. Accesses, behaviors and templates ask `read`; all
other kinds are evaluated as they are. -/
def evaluateReading (read : Store → ObjectId → String → Value) (ctx : EvalContext) (w : Watch) : Expr → Eval Value
  | scope n a h => do
    match ← lookUp ctx n a h with
    | none => return if ctx.flags.strict then .undefined else .text ""
    | some o =>
      let v ← readWith read w o n
      return if ctx.flags.strict then v else v.orEmpty
  | member e n => do
    match ← e.evaluateReading read ctx (watchObject ctx w) with
    | .object o => readWith read w o n
    | v => return memberOfOther ctx.flags.strict v n
  | behavior e _ args => do
    let v ← e.evaluateReading read ctx w
    let _ ← evaluateAllReading read ctx w args
    return v
  | template ss ps => return .text (ss.headD "" ++ (← renderPartsReading read ctx w ss.tail ps))
  | e => e.evaluate ctx w

def evaluateAllReading (read : Store → ObjectId → String → Value) (ctx : EvalContext) (w : Watch) :
    List Expr → Eval (List Value)
  | [] => return []
  | e :: es => do
    let v ← e.evaluateReading read ctx w
    return v :: (← evaluateAllReading read ctx w es)

def renderPartsReading (read : Store → ObjectId → String → Value) (ctx : EvalContext) (w : Watch)
    (segments : List String) : List Expr → Eval String
  | [] => return ""
  | e :: es => do
    let v ← e.evaluateReading read ctx w
    return v.display ++ segments.headD "" ++ (← renderPartsReading read ctx w segments.tail es)

end

mutual

theorem evaluateReading_property (ctx : EvalContext) :
    ∀ (e : Expr) (w : Watch), e.evaluateReading Store.property ctx w = e.evaluate ctx w
  | scope n a h, w => by
    rw [evaluate_scope]
    simp only [evaluateReading]
    rfl
  | member e n, w => by
    rw [evaluate_member]
    simp only [evaluateReading, evaluateReading_property ctx e]
    rfl
  | behavior e _ args, w => by
    simp only [evaluateReading, evaluate, evaluateReading_property ctx e, evaluateAllReading_property ctx args]
  | template ss ps, w => by
    simp only [evaluateReading, evaluate, renderPartsReading_property ctx ps]
  | this .., w | keyed .., w | callScope .., w | callMember .., w | callFunction .., w | unary .., w | binary .., w
  | conditional .., w | assign .., w | literal .., w | array .., w | object .., w | taggedTemplate .., w
  | interpolation .., w | html .., w | converter .., w | forOf .., w | identifier .., w | arrayPattern .., w
  | objectPattern .., w | streamScope .., w | streamMember .., w | streamTemplate .., w => by
    simp only [evaluateReading]

theorem evaluateAllReading_property (ctx : EvalContext) :
    ∀ (es : List Expr) (w : Watch), evaluateAllReading Store.property ctx w es = evaluateAll ctx w es
  | [], w => rfl
  | e :: es, w => by
    simp only [evaluateAllReading, evaluateAll, evaluateReading_property ctx e, evaluateAllReading_property ctx es]

theorem renderPartsReading_property (ctx : EvalContext) :
    ∀ (es : List Expr) (w : Watch) (ss : List String),
      renderPartsReading Store.property ctx w ss es = renderParts ctx w ss es
  | [], w, ss => rfl
  | e :: es, w, ss => by
    simp only [renderPartsReading, renderParts, evaluateReading_property ctx e, renderPartsReading_property ctx es]

end

end Expr

/-! ### The meaning of a rebased expression -/

/-- The value with the latest value of the stream in its place if it is one. -/
def Registry.throughStream (alive : StreamId → Bool) (s : Store) (r : Registry) : Value → Value
  | .stream i => r.latest alive s i
  | v => v

/-- What properties hold when those with a marked name are read through their streams, as `s` and `r` have them. -/
def Registry.markedReading (marker : Char) (alive : StreamId → Bool) (s : Store) (r : Registry) (t : Store)
    (o : ObjectId) (n : String) : Value :=
  if isMarked marker n then (r.throughStream alive s (t.property o n)).orEmpty else t.property o n

def Read.isProperty : Read → Bool
  | property .. => true
  | stream .. => false

theorem Registry.throughStream_of_not_stream {alive : StreamId → Bool} {s : Store} {r : Registry} {v : Value}
    (h : v.stream? = none) : r.throughStream alive s v = v := by
  cases v <;> first | rfl | simp [Value.stream?] at h

theorem Value.orEmpty_orEmpty (v : Value) : v.orEmpty.orEmpty = v.orEmpty := by
  cases v <;> rfl

namespace Eval

open Session (Shared sharedIn)

/-- The objects and streams that an evaluation can come across: those of its scopes, and whatever properties and streams
hold that it has come across. -/
inductive Reach (ctx : EvalContext) (s : Store) (r : Registry) : Shared → Prop
  | context {l : Level} : l ∈ ctx.levels → Reach ctx s r (.object l.context)
  | override {l : Level} : l ∈ ctx.levels → Reach ctx s r (.object l.override)
  | property {o : ObjectId} {n : String} {x : Shared} :
    Reach ctx s r (.object o) → x ∈ sharedIn (s.property o n) → Reach ctx s r x
  | latest {i : StreamId} {x : Shared} :
    Reach ctx s r (.stream i) → x ∈ sharedIn (r.latest ctx.alive s i) → Reach ctx s r x

/-- Everything in the value can be come across. -/
def Reaches (ctx : EvalContext) (s : Store) (r : Registry) (v : Value) : Prop := ∀ x ∈ sharedIn v, Reach ctx s r x

/-- Each stream that can be come across is alive. -/
def ReachesAlive (ctx : EvalContext) (s : Store) (r : Registry) : Prop :=
  ∀ i, Reach ctx s r (.stream i) → ctx.alive i = true

section

variable (ctx : EvalContext) (s : Store) (r : Registry)

/-- The states of the two evaluations, the one of the original expression first: it changes nothing, and the other one
opens observers but keeps the objects and the latest values. -/
structure Alongside (t t' : EvalState) : Prop where
  store : t.store = s
  registry : t.registry = r
  objects : t'.store.objects = s.objects
  known : Registry.Known t'.store t'.registry
  latest {i : StreamId} : ctx.alive i = true → t'.registry.latest ctx.alive t'.store i = r.latest ctx.alive s i
  reads : t'.reads.filter Read.isProperty = t.reads.filter Read.isProperty

/-- Both computations succeed with the same result, of which `Q` holds. -/
def Simulates {α : Type} (Q : α → Prop) (m m' : Eval α) : Prop :=
  ∀ t t', Alongside ctx s r t t' →
    ∃ a u u', Q a ∧ m.run t = (.ok a, u) ∧ m'.run t' = (.ok a, u') ∧ Alongside ctx s r u u'

end

variable {ctx : EvalContext} {s : Store} {r : Registry} {marker : Char}

theorem reach_of_located {n : String} {a : UInt32} {f : Bool} {o : ObjectId} (h : located ctx s n a f = some o) :
    Reach ctx s r (.object o) := by
  obtain ⟨l, hl, rfl | rfl⟩ := exists_level_of_located h
  · exact .context hl
  · exact .override hl

theorem Reaches.of_plain {v : Value} (h : sharedIn v = []) : Reaches ctx s r v := by
  simp [Reaches, h]

theorem Reaches.orEmpty {v : Value} (h : Reaches ctx s r v) : Reaches ctx s r v.orEmpty := by
  unfold Value.orEmpty
  split
  · exact .of_plain rfl
  · exact h

/-- What an object that was come across holds can be come across, also where it is read through streams. -/
theorem reaches_markedReading {o : ObjectId} (ho : Reach ctx s r (.object o)) (n : String) :
    Reaches ctx s r (r.markedReading marker ctx.alive s s o n) := by
  have hp : Reaches ctx s r (s.property o n) := fun x hx => .property ho hx
  unfold Registry.markedReading
  split
  · apply Reaches.orEmpty
    cases hv : s.property o n with
    | stream i => exact fun x hx => .latest (hp (.stream i) (by simp [hv, sharedIn])) hx
    | _ => rwa [hv] at hp
  · exact hp

theorem Alongside.property {t t' : EvalState} (h : Alongside ctx s r t t') (o : ObjectId) (n : String) :
    t'.store.property o n = s.property o n := by
  simp [Store.property, Store.object, h.objects]

theorem Alongside.located {t t' : EvalState} (h : Alongside ctx s r t t') (n : String) (a : UInt32) (f : Bool) :
    located ctx t'.store n a f = located ctx s n a f := by
  have hp : t'.store.hasProperty = s.hasProperty := by
    funext o n
    simp [Store.hasProperty, Store.object, h.objects]
  simp only [Eval.located, hp]

theorem Alongside.read {t t' : EvalState} (h : Alongside ctx s r t t') (w : Watch) (o : ObjectId) (n : String) :
    Alongside ctx s r { t with reads := reported w t.reads o n } { t' with reads := reported w t'.reads o n } := by
  refine { h with reads := ?_ }
  unfold reported
  dsimp only
  split
  · simp [List.filter_append, h.reads]
  · exact h.reads

theorem Simulates.pure {α : Type} {Q : α → Prop} {a : α} (h : Q a) : Simulates ctx s r Q (pure a) (pure a) :=
  fun t t' ht => ⟨a, t, t', h, rfl, rfl, ht⟩

theorem Simulates.bind {α β : Type} {Q : α → Prop} {Q' : β → Prop} {m m' : Eval α} {f f' : α → Eval β}
    (hm : Simulates ctx s r Q m m') (hf : ∀ a, Q a → Simulates ctx s r Q' (f a) (f' a)) :
    Simulates ctx s r Q' (m >>= f) (m' >>= f') := by
  intro t t' h
  obtain ⟨a, u, u', ha, hu, hu', h⟩ := hm t t' h
  obtain ⟨b, v, v', hb, hv, hv', h⟩ := hf a ha u u' h
  refine ⟨b, v, v', hb, ?_, ?_, h⟩
  · rw [run_bind, hu]
    exact hv
  · rw [run_bind, hu']
    exact hv'

theorem simulates_lookUp {n : String} {a : UInt32} {f : Bool} (hl : (located ctx s n a f).isSome) {β : Type}
    {Q : β → Prop} {k k' : ObjectId → Eval β} {d d' : Eval β}
    (hk : ∀ o, Reach ctx s r (.object o) → Simulates ctx s r Q (k o) (k' o)) :
    Simulates ctx s r Q
      (lookUp ctx n a f >>= fun | none => d | some o => k o)
      (lookUp ctx n a f >>= fun | none => d' | some o => k' o) := by
  intro t t' h
  obtain ⟨o, ho⟩ := Option.isSome_iff_exists.1 hl
  obtain ⟨b, u, u', hb, hu, hu', h'⟩ := hk o (reach_of_located ho) t t' h
  refine ⟨b, u, u', hb, ?_, ?_, h'⟩
  · rw [run_bind, run_lookUp, h.store, ho]
    exact hu
  · rw [run_bind, run_lookUp, h.located, ho]
    exact hu'

theorem run_readWith (read : Store → ObjectId → String → Value) (w : Watch) (o : ObjectId) (n : String)
    (t : EvalState) :
    (Expr.readWith read w o n).run t = (.ok (read t.store o n), { t with reads := reported w t.reads o n }) := by
  cases w <;> rfl

/-- A property whose name is not marked is read as it is. -/
theorem simulates_plain (w : Watch) {o : ObjectId} (ho : Reach ctx s r (.object o)) {n : String}
    (hn : isMarked marker n = false) :
    Simulates ctx s r (Reaches ctx s r) (Expr.readWith (r.markedReading marker ctx.alive s) w o n)
      (readValue w o n) := by
  intro t t' h
  refine ⟨s.property o n, _, _, fun x hx => .property ho hx, ?_, ?_, h.read w o n⟩
  · simp [run_readWith, Registry.markedReading, hn, h.store]
  · rw [run_readValue, h.property]

/-- A property whose name is marked is read through its stream. -/
theorem simulates_marked (halive : ReachesAlive ctx s r) {w : Watch} (hw : w ≠ .nothing) {o : ObjectId}
    (ho : Reach ctx s r (.object o)) {n : String} (hn : isMarked marker n = true) (strict : Bool) :
    Simulates ctx s r (Reaches ctx s r)
      (do
        let v ← Expr.readWith (r.markedReading marker ctx.alive s) w o n
        return if strict then v else v.orEmpty)
      (do
        let v ← readValue w o n
        readThrough ctx w v) := by
  intro t t' h
  have hr := h.read w o n
  have hval : r.markedReading marker ctx.alive s s o n = (r.throughStream ctx.alive s (s.property o n)).orEmpty := by
    simp [Registry.markedReading, hn]
  have hrun : (do
        let v ← Expr.readWith (r.markedReading marker ctx.alive s) w o n
        return if strict then v else v.orEmpty : Eval Value).run t =
      (.ok (r.markedReading marker ctx.alive s s o n), { t with reads := reported w t.reads o n }) := by
    rw [run_bind, run_readWith, h.store]
    cases strict <;> simp [hval, Value.orEmpty_orEmpty]
  rw [hrun, run_bind, run_readValue, h.property]
  dsimp only
  cases hv : (s.property o n).stream? with
  | none =>
    refine ⟨_, _, _, reaches_markedReading ho n, rfl, ?_, hr⟩
    rw [readThrough_of_not_stream ctx w hv, run_pure, hval, Registry.throughStream_of_not_stream hv]
  | some i =>
    have hi := Value.eq_of_stream? hv
    have hal : ctx.alive i = true := halive i (.property ho (n := n) (by simp [hi, sharedIn]))
    refine ⟨_, _, ⟨(t'.registry.observerFor ctx.alive t'.store i).1, (t'.registry.observerFor ctx.alive t'.store i).2.1,
      reported w t'.reads o n ++ [.stream i (t'.registry.observerFor ctx.alive t'.store i).2.2]⟩,
      reaches_markedReading ho n, rfl, ?_, ?_⟩
    · have hlatest := h.latest hal
      unfold Registry.latest at hlatest
      rw [hi, readThrough_stream ctx hw, run_bind, run_readStream]
      simp only [hlatest, run_pure, hval, hi, Registry.throughStream, Registry.latest]
    · exact
        { store := hr.store
          registry := hr.registry
          objects := (Registry.objects_observerFor ..).trans hr.objects
          known := h.known.observerFor ctx.alive i
          latest := fun hj => (Registry.latest_observerFor h.known i hj).trans (h.latest hj)
          reads := by simpa [List.filter_append, Read.isProperty] using hr.reads }

end Eval

namespace Expr

open Eval
open Session (sharedIn)

theorem isStreamAware_of_mem_children {c e : Expr} (hc : c ∈ e.children) (h : e.isStreamAware = false) :
    c.isStreamAware = false := by
  rw [isStreamAware_eq, Bool.or_eq_false_iff, List.any_eq_false] at h
  simpa using h.2 c hc

section

variable {ctx : EvalContext} {s : Store} {r : Registry} {marker : Char}

theorem ok_bind {α β ε : Type} {x : Except ε α} {f : α → Except ε β} {b : β} (h : x >>= f = .ok b) :
    ∃ a, x = .ok a ∧ f a = .ok b := by
  cases x with
  | error e => cases h
  | ok a => exact ⟨a, rfl, h⟩

/-- Rebasing a list rebases each of its expressions. -/
theorem rebaseAll?_cons {e : Expr} {es : List Expr} {es? : Option (List Expr)} {marker : Char}
    (h : rebaseAll? marker (e :: es) = .ok es?) :
    ∃ e? as?, e.rebase? marker = .ok e? ∧ rebaseAll? marker es = .ok as? ∧
      es?.getD (e :: es) = e?.getD e :: as?.getD es := by
  simp only [rebaseAll?] at h
  obtain ⟨e?, he, h⟩ := ok_bind h
  obtain ⟨as?, ha, h⟩ := ok_bind h
  refine ⟨e?, as?, he, ha, ?_⟩
  obtain rfl : (if e?.isNone && as?.isNone then none else some (e?.getD e :: as?.getD es)) = es? := Except.ok.inj h
  cases e? <;> cases as? <;> rfl

/-- Each scope access in the expression belongs to some object. -/
def Resolves (ctx : EvalContext) (s : Store) (e : Expr) : Prop :=
  ∀ n a h, Occurs (.scope n a h) e → (located ctx s n a h).isSome

theorem Resolves.child {c e : Expr} (h : Resolves ctx s e) (hc : c ∈ e.children) : Resolves ctx s c :=
  fun n a f ho => h n a f (.inside hc ho)

theorem watchObject_ne_nothing (ctx : EvalContext) {w : Watch} (h : w ≠ .nothing) : watchObject ctx w ≠ .nothing := by
  cases w
  · exact absurd rfl h
  · simp [watchObject]
  · simp only [watchObject]
    split <;> simp

mutual

/-- Wherever an expression is rebased, the two evaluations go alongside each other. -/
theorem simulates_rebase? (halive : ReachesAlive ctx s r) :
    ∀ (e : Expr) (e? : Option Expr) (w : Watch), e.rebase? marker = .ok e? → e.isStreamAware = false →
      Resolves ctx s e → w ≠ .nothing →
      Simulates ctx s r (Reaches ctx s r) (e.evaluateReading (r.markedReading marker ctx.alive s) ctx w)
        ((e?.getD e).evaluate ctx w)
  | this a, e?, w, he, _, _, _ => by
    obtain rfl : none = e? := by simpa [rebase?] using he
    simp only [evaluateReading, Option.getD_none, evaluate]
    apply Simulates.pure
    cases hl : ctx.scope.ancestor? a.toNat with
    | none => exact .of_plain rfl
    | some l =>
      intro x hx
      obtain rfl : x = .object l.context := by simpa [sharedIn] using hx
      exact .context (mem_levels_of_ancestor? hl)
  | scope n a h, e?, w, he, _, hl, hw => by
    have hl := hl n a h .here
    simp only [rebase?, Except.ok.injEq] at he
    subst he
    simp only [evaluateReading]
    cases hn : isMarked marker n with
    | true =>
      simp only [if_true, Option.getD_some, evaluate_streamScope]
      exact simulates_lookUp hl fun o ho => simulates_marked halive hw ho hn ctx.flags.strict
    | false =>
      simp only [Bool.false_eq_true, if_false, Option.getD_none, evaluate_scope]
      refine simulates_lookUp hl fun o ho => (simulates_plain w ho hn).bind fun v hv => .pure ?_
      split
      · exact hv
      · exact hv.orEmpty
  | member e n, e?, w, he, hs, hl, hw => by
    simp only [rebase?] at he
    obtain ⟨o?, ho, he⟩ := ok_bind he
    have ih := simulates_rebase? halive e o? (watchObject ctx w) ho
      (isStreamAware_of_mem_children (List.mem_singleton.2 rfl) hs) (hl.child (List.mem_singleton.2 rfl))
      (watchObject_ne_nothing ctx hw)
    simp only [evaluateReading]
    cases hn : isMarked marker n with
    | true =>
      obtain rfl : some (streamMember (o?.getD e) n) = e? := by
        rw [hn] at he
        exact Except.ok.inj he
      rw [Option.getD_some, evaluate_streamMember]
      apply ih.bind
      intro v hv
      cases v
      case object o => simpa using simulates_marked halive hw (hv (.object o) (by simp [sharedIn])) hn true
      all_goals exact .pure (.of_plain (sharedIn_memberOfOther _ rfl n))
    | false =>
      have he' : e?.getD (member e n) = member (o?.getD e) n := by
        obtain rfl : (o?.map fun o' => member o' n) = e? := by
          rw [hn] at he
          exact Except.ok.inj he
        cases o? <;> rfl
      rw [he', evaluate_member]
      apply ih.bind
      intro v hv
      cases v
      case object o => exact simulates_plain w (hv (.object o) (by simp [sharedIn])) hn
      all_goals exact .pure (.of_plain (sharedIn_memberOfOther _ rfl n))
  | behavior e n args, e?, w, he, hs, hl, hw => by
    simp only [rebase?] at he
    obtain ⟨o?, ho, he⟩ := ok_bind he
    obtain ⟨as?, ha, he⟩ := ok_bind he
    have he' : e?.getD (behavior e n args) = behavior (o?.getD e) n (as?.getD args) := by
      obtain rfl : (if o?.isNone && as?.isNone then none else some (behavior (o?.getD e) n (as?.getD args))) = e? :=
        Except.ok.inj he
      cases o? <;> cases as? <;> rfl
    simp only [he', evaluateReading, evaluate]
    apply (simulates_rebase? halive e o? w ho (isStreamAware_of_mem_children (List.mem_cons_self ..) hs)
      (hl.child (List.mem_cons_self ..)) hw).bind
    intro v hv
    apply (simulates_rebaseAll? halive args as? w ha
      (fun c hc => isStreamAware_of_mem_children (e := behavior e n args) (List.mem_cons_of_mem _ hc) hs)
      (fun c hc => hl.child (List.mem_cons_of_mem _ hc)) hw).bind
    exact fun _ _ => .pure hv
  | template ss ps, e?, w, he, hs, hl, hw => by
    simp only [rebase?] at he
    obtain ⟨ps?, hp, he⟩ := ok_bind he
    have he' : (e?.getD (template ss ps)).evaluate ctx w = (template ss (ps?.getD ps)).evaluate ctx w := by
      obtain rfl : (ps?.map fun ps' => streamTemplate ss ps') = e? := Except.ok.inj he
      cases ps? <;> simp only [Option.map, Option.getD, evaluate]
    rw [he']
    simp only [evaluateReading, evaluate]
    apply (simulates_renderParts halive ps ps? ss.tail w hp (fun c hc => isStreamAware_of_mem_children (e := template ss ps) hc hs)
      (fun c hc => hl.child hc) hw).bind
    exact fun _ _ => .pure (.of_plain rfl)
  | keyed .., e?, w, he, _, _, _ | callScope .., e?, w, he, _, _, _ | callMember .., e?, w, he, _, _, _
  | callFunction .., e?, w, he, _, _, _ | unary .., e?, w, he, _, _, _ | binary .., e?, w, he, _, _, _
  | conditional .., e?, w, he, _, _, _ | assign .., e?, w, he, _, _, _ | literal .., e?, w, he, _, _, _
  | array .., e?, w, he, _, _, _ | object .., e?, w, he, _, _, _ | taggedTemplate .., e?, w, he, _, _, _
  | interpolation .., e?, w, he, _, _, _ | html .., e?, w, he, _, _, _ | converter .., e?, w, he, _, _, _
  | forOf .., e?, w, he, _, _, _ | identifier .., e?, w, he, _, _, _ | arrayPattern .., e?, w, he, _, _, _
  | objectPattern .., e?, w, he, _, _, _ => by
    simp [rebase?] at he
  | streamScope .., e?, w, _, hs, _, _ | streamMember .., e?, w, _, hs, _, _ | streamTemplate .., e?, w, _, hs, _, _ => by
    simp [isStreamAware] at hs

theorem simulates_rebaseAll? (halive : ReachesAlive ctx s r) :
    ∀ (es : List Expr) (es? : Option (List Expr)) (w : Watch), rebaseAll? marker es = .ok es? →
      (∀ c ∈ es, c.isStreamAware = false) → (∀ c ∈ es, Resolves ctx s c) → w ≠ .nothing →
      Simulates ctx s r (fun _ => True) (evaluateAllReading (r.markedReading marker ctx.alive s) ctx w es)
        (evaluateAll ctx w (es?.getD es))
  | [], es?, w, he, _, _, _ => by
    obtain rfl : none = es? := by simpa [rebaseAll?] using he
    simp only [evaluateAllReading, Option.getD_none, evaluateAll]
    exact .pure trivial
  | e :: es, es?, w, he, hs, hl, hw => by
    obtain ⟨e?, as?, h, ha, he'⟩ := rebaseAll?_cons he
    simp only [he', evaluateAllReading, evaluateAll]
    apply (simulates_rebase? halive e e? w h (hs e (by simp)) (hl e (by simp)) hw).bind
    intro v _
    apply (simulates_rebaseAll? halive es as? w ha (fun c hc => hs c (List.mem_cons_of_mem _ hc))
      (fun c hc => hl c (List.mem_cons_of_mem _ hc)) hw).bind
    exact fun _ _ => .pure trivial

theorem simulates_renderParts (halive : ReachesAlive ctx s r) :
    ∀ (es : List Expr) (es? : Option (List Expr)) (ss : List String) (w : Watch), rebaseAll? marker es = .ok es? →
      (∀ c ∈ es, c.isStreamAware = false) → (∀ c ∈ es, Resolves ctx s c) → w ≠ .nothing →
      Simulates ctx s r (fun _ => True) (renderPartsReading (r.markedReading marker ctx.alive s) ctx w ss es)
        (renderParts ctx w ss (es?.getD es))
  | [], es?, ss, w, he, _, _, _ => by
    obtain rfl : none = es? := by simpa [rebaseAll?] using he
    simp only [renderPartsReading, Option.getD_none, renderParts]
    exact .pure trivial
  | e :: es, es?, ss, w, he, hs, hl, hw => by
    obtain ⟨e?, as?, h, ha, he'⟩ := rebaseAll?_cons he
    simp only [he', renderPartsReading, renderParts]
    apply (simulates_rebase? halive e e? w h (hs e (by simp)) (hl e (by simp)) hw).bind
    intro v _
    apply (simulates_renderParts halive es as? ss.tail w ha (fun c hc => hs c (List.mem_cons_of_mem _ hc))
      (fun c hc => hl c (List.mem_cons_of_mem _ hc)) hw).bind
    exact fun _ _ => .pure trivial

end

end

/-- A rebased expression gives the value that the expression gives where marked properties hold the latest values of
their streams, and reports the same reads of properties. -/
theorem evaluate_rebase {ctx : EvalContext} {s : Store} {r : Registry} {marker : Char} {e e' : Expr}
    (he : e.rebase marker = .ok e') (hs : e.isStreamAware = false) (hk : Registry.Known s r)
    (halive : ReachesAlive ctx s r) (hl : Resolves ctx s e) :
    ∃ v t t',
      (e.evaluateReading (r.markedReading marker ctx.alive s) ctx .everything).run { store := s, registry := r } =
        (.ok v, t) ∧
      (e'.evaluate ctx .everything).run { store := s, registry := r } = (.ok v, t') ∧
      t'.reads.filter Read.isProperty = t.reads.filter Read.isProperty := by
  unfold rebase at he
  cases hr : e.rebase? marker with
  | error x =>
    rw [hr] at he
    cases he
  | ok e? =>
    rw [hr] at he
    obtain rfl : e?.getD e = e' := Except.ok.inj he
    have hstart : Alongside ctx s r { store := s, registry := r } { store := s, registry := r } :=
      { store := rfl, registry := rfl, objects := rfl, known := hk, latest := fun _ => rfl, reads := rfl }
    obtain ⟨v, t, t', _, ht, ht', h⟩ := simulates_rebase? halive e e? .everything hr hs hl (by simp) _ _ hstart
    exact ⟨v, t, t', ht, ht', h.reads⟩

/-- An object with a marked property, which holds a subject that replays its latest value. -/
private def markedStore : Store where
  objects := Table.ofList [(⟨0⟩, { properties := Table.ofList [("a$", .stream ⟨1⟩)] })]
  streams := Table.ofList [(⟨1⟩, .subject { latest := some (.int 5), replays := true })]
  fresh := 3

private def markedContext : EvalContext where
  flags := {}
  scope := ⟨⟨2⟩, ⟨⟨0⟩, ⟨0⟩⟩, []⟩
  host := none
  converters := ∅
  alive _ := true

/-- The case of a template with the name in it. -/
theorem evaluate_rebase_template :
    ∃ v t t',
      ((template ["<", ">"] [scope "a$" 0 false]).evaluateReading
          (Registry.markedReading '$' markedContext.alive markedStore { threshold := 16 }) markedContext
          .everything).run { store := markedStore, registry := { threshold := 16 } } = (.ok v, t) ∧
      ((streamTemplate ["<", ">"] [streamScope "a$" 0 false]).evaluate markedContext .everything).run
          { store := markedStore, registry := { threshold := 16 } } = (.ok v, t') ∧
      t'.reads.filter Read.isProperty = t.reads.filter Read.isProperty := by
  have he : (template ["<", ">"] [scope "a$" 0 false]).rebase '$' =
      .ok (streamTemplate ["<", ">"] [streamScope "a$" 0 false]) := by
    rfl
  refine evaluate_rebase he rfl ⟨?_, ?_⟩ (fun _ _ => rfl) ?_
  · intro o x ho
    cases ho
  · intro i o ho
    cases ho
  · intro n a h ho
    rcases ho with _ | ⟨hc, ho⟩
    obtain rfl := List.mem_singleton.1 hc
    rcases ho with _ | ⟨hc, ho⟩
    · rfl
    · simp [children] at hc

end Expr

end DataBinding
