import DataBinding.Proofs.Outcomes
import DataBinding.Proofs.Uninvolved

/-!
# The handles of the host's sinks

A sink of the host keeps its subscription until the host gives it up: it takes the sink off, drops its name or gives the
name to another sink (`GivesUp`). Nothing else that happens in a session touches it (`retains_act`). Commands that are
not about sinks leave all of them as they are (`handlers_execute`).
-/

namespace DataBinding

/-- A sink, but for how often it still acts. -/
def Handler.core (x : Handler) : Handler := { x with limit := 0 }

namespace Session

variable {s t : Session} {P Q : Prop} {k : SinkId}

/-! ### What leaves sinks alone -/

section

variable (s)

theorem handlers_observe (b : BindingId) (reads : List Read) : (s.observe b reads).handlers = s.handlers := by
  unfold observe
  induction reads generalizing s with
  | nil => rfl
  | cons r reads ih =>
    rw [List.foldl_cons, ih]
    split <;> rfl

theorem handlers_readAgain (b : BindingId) (x : Binding) (y : Bound) :
    (s.readAgain b x y).1.handlers = s.handlers :=
  (handlers_observe ..).trans (handlers_evaluate ..)

theorem handlers_bind (b : BindingId) (x : Binding) (y : Bound) : (s.bind b x y).1.session.handlers = s.handlers := by
  have hread : ((((s.unbind b).modifyBinding b fun x => { x with state := some y }).readAgain b x y).1).handlers =
      s.handlers := (handlers_readAgain ..).trans (steady_unbind s b).handlers
  unfold bind
  split
  · rfl
  · dsimp only
    split
    next u v hu =>
      rw [hu] at hread
      exact (uninvolved_write ..).handlers.trans ((steady_clearStale u b).handlers.trans hread)
    next u e hu =>
      rw [hu] at hread
      exact (steady_clearObservations ..).handlers.trans hread

theorem handlers_refresh (b : BindingId) : (s.refresh b).session.handlers = s.handlers := by
  unfold refresh
  split
  · rfl
  next x hx =>
    split
    · rfl
    next y hy =>
      have hread := handlers_readAgain s b x y
      split
      next u v hu =>
        rw [hu] at hread
        exact (uninvolved_write ..).handlers.trans ((steady_clearStale u b).handlers.trans hread)
      next u e hu =>
        rw [hu] at hread
        exact hread

theorem handlers_tell (new previous : Value) (l : Listener) :
    (s.tell new previous l).session.handlers = s.handlers := by
  cases l with
  | binding b => exact handlers_refresh s b
  | recorder i =>
    simp only [tell]
    split
    · rfl
    · split <;> rfl

end

/-! ### Commands -/

theorem MakeAnswer.handlers {name system target : String} {a : Answer} (ha : MakeAnswer s name system target a) :
    a.session.handlers = s.handlers := by
  cases ha with
  | refused => rfl
  | made => exact handlers_setName _ _ (by simp)

theorem handlers_answer {g : Ghost} (h : Sound g.hand s) {c : Command} (hc : c.isForSinks = false) :
    Ensures (·.session.handlers = s.handlers) (s.answer? c) := by
  cases hturns : c.turns with
  | false => exact fun a ha => (uninvolved_answer h hc hturns a ha).handlers
  | true =>
    cases c with
    | makeFromAttribute => exact fun a ha => (answer_makeFromAttribute ha).handlers
    | makeBinding => exact fun a ha => (answer_makeBinding ha).handlers
    | drop what name =>
      have hwhat : what ≠ .sink := by
        rintro rfl
        cases hc
      simp only [answer?, answerDrop]
      split
      · exact .some rfl
      · exact .some (handlers_letGo _ hwhat)
    | bind binding scope host =>
      refine .bind_pair fun b x _ => .bind fun scope _ => .bind fun host _ => ?_
      have hbound := handlers_bind s b x { scope, host }
      split
      next hb =>
        rw [hb] at hbound
        exact .some hbound
      next hb =>
        rw [hb] at hbound
        exact .some hbound
    | unbind => exact .bind fun _ _ => .some (steady_unbind ..).handlers
    | _ => cases hturns

/-- A command that is not about sinks leaves all of them as they are. -/
theorem handlers_execute (h : Sound (· ∈ s.held) s) {c : Command} (hc : c.isForSinks = false) :
    (s.execute c).session.handlers = s.handlers := by
  unfold execute
  cases ha : s.answer? c with
  | none => rfl
  | some a => exact handlers_answer (g := bare _) h hc a ha

/-! ### What becomes of a sink -/

/-- The sink that a command gives up. -/
def givenUp? (s : Session) : Command → Option SinkId
  | .unsubscribe name | .drop .sink name => s.named? .sink name
  | _ => none

/-- The host gives the sink up. -/
inductive GivesUp (k : SinkId) (s : Session) (a : Act) : Prop
  | command {t c} (hc : s.carriedOut? a = some (t, c)) (hk : t.givenUp? c = some k)
  /-- Another sink gets its name. -/
  | replaces {name k' rest} (ha : a = .step) (hp : s.pending = .adopt name k' :: rest)
      (hk : s.named? .sink name = some k)
  /-- A task ends that held it. -/
  | ends {rest} (ha : a = .step) (hp : s.pending = .keep k.ref :: rest)

/-- The sink is as it was, but for how often it still acts, or it has lost its subscription, which asks for `P`. -/
def Retains (k : SinkId) (P : Prop) (s t : Session) : Prop :=
  ∀ x, s.handlers.get? k = some x → ∃ y, t.handlers.get? k = some y ∧
    (y.core = x.core ∨ P ∧ y.core = { x.core with subscription := .closed })

theorem Retains.of_get? (h : t.handlers.get? k = s.handlers.get? k) : Retains k P s t :=
  fun x hx => ⟨x, h.trans hx, .inl rfl⟩

theorem Retains.mono (hPQ : P → Q) (h : Retains k P s t) : Retains k Q s t := by
  intro x hx
  obtain ⟨y, hy, hxy⟩ := h x hx
  exact ⟨y, hy, hxy.imp_right (.imp_left hPQ)⟩

/-- A sink gives its subscription up. -/
theorem retains_giveUp {k' : SinkId} {x : Handler} (hx : s.handlers.get? k' = some x) :
    Retains k (k' = k) s
      ({ s with handlers := s.handlers.insert k' { x with subscription := .closed } }.close x.subscription) := by
  intro z hz
  rw [close_handlers]
  by_cases hk : k' = k
  · subst hk
    obtain rfl := Option.some.inj (hx.symm.trans hz)
    exact ⟨_, (Table.get?_insert ..).trans (if_pos rfl), .inr ⟨rfl, rfl⟩⟩
  · exact ⟨z, (Table.get?_insert ..).trans ((if_neg hk).trans hz), .inl rfl⟩

theorem retains_letGo (s : Session) (r : Ref) : Retains k (r = k.ref) s (s.letGo r) := by
  by_cases hr : r.thing = .sink
  · obtain ⟨thing, n⟩ := r
    obtain rfl : thing = .sink := hr
    unfold letGo
    split
    · exact .of_get? rfl
    · dsimp only
      split
      · exact .of_get? rfl
      next x hx => exact (retains_giveUp hx).mono fun hk => by rw [← hk]; rfl
  · exact .of_get? (by rw [handlers_letGo s hr])

theorem named?_of_ref {name : String} {n : Nat} (hn : s.names.get? ⟨.sink, name⟩ = some n)
    (hk : (⟨.sink, n⟩ : Ref) = k.ref) : s.named? .sink name = some k := by
  obtain ⟨m⟩ := k
  obtain ⟨-, rfl⟩ := Ref.mk.inj hk
  simp [named?, hn]

/-- The name of a sink goes to another one. -/
theorem retains_adopt (s : Session) (name : String) (k' : SinkId) :
    Retains k (s.named? .sink name = some k) s (s.setName name k'.ref) := by
  unfold setName
  dsimp only
  split
  · exact .of_get? rfl
  next n hn =>
    have hlet := retains_letGo (k := k) { s with names := s.names.insert ⟨.sink, name⟩ k'.number } ⟨.sink, n⟩
    exact hlet.mono (named?_of_ref hn)

theorem retains_unsubscribe (s : Session) (name : String) :
    Retains k (s.named? .sink name = some k) s (s.execute (.unsubscribe name)).session := by
  cases hk : s.named? .sink name with
  | none => exact .of_get? (by simp [execute, answer?, answerUnsubscribe, hk])
  | some k' =>
    cases hx : s.handlers.get? k' with
    | none => exact .of_get? (by simp [execute, answer?, answerUnsubscribe, hk, hx])
    | some x =>
      simp only [execute, answer?, answerUnsubscribe, hk, hx, Option.bind_eq_bind, Option.bind_some, Option.pure_def,
        Option.getD_some]
      exact (retains_giveUp hx).mono fun h => by rw [h]

theorem retains_drop (s : Session) (name : String) :
    Retains k (s.named? .sink name = some k) s (s.execute (.drop .sink name)).session := by
  simp only [execute, answer?, answerDrop]
  split
  · exact .of_get? rfl
  next n hn =>
    have hlet := retains_letGo (k := k) { s with names := s.names.erase ⟨.sink, name⟩ } ⟨.sink, n⟩
    exact hlet.mono (named?_of_ref hn)

theorem retains_subscribe (s : Session) (hold : k.number < s.store.fresh) (name stream : String)
    (actions : List Command) (limit : Nat) :
    Retains k P s (s.execute (.subscribe name stream actions limit)).session := by
  have hne : (⟨s.store.fresh⟩ : SinkId) ≠ k := by
    rintro rfl
    exact Nat.lt_irrefl _ hold
  cases hi : s.named? .stream stream with
  | none => exact .of_get? (by simp [execute, answer?, answerSubscribe, hi])
  | some i =>
    refine .of_get? ?_
    simp only [execute, answer?, answerSubscribe, hi, Option.bind_eq_bind, Option.bind_some, Option.pure_def,
      Option.getD_some]
    exact (Table.get?_insert ..).trans (if_neg hne)

theorem retains_execute (h : Sound (· ∈ s.held) s) (hold : k.number < s.store.fresh) (c : Command) :
    Retains k (s.givenUp? c = some k) s (s.execute c).session := by
  cases hc : c.isForSinks with
  | false => exact .of_get? (by rw [handlers_execute h hc])
  | true =>
    cases c with
    | subscribe => exact retains_subscribe s hold _ _ _ _
    | unsubscribe => exact retains_unsubscribe s _
    | drop what name =>
      cases what with
      | sink => exact retains_drop s name
      | _ => cases hc
    | _ => cases hc

theorem retains_receive (s : Session) (e : StreamEvent) (k' : Sink) : Retains k P s (s.receive e k').session := by
  cases k' with
  | observer o =>
    refine .of_get? ?_
    simp only [receive]
    split
    · rfl
    · split <;> rfl
  | handler k' =>
    simp only [receive]
    split
    · exact .of_get? rfl
    next x hx =>
      have hnoted : (s.noteEvent x.label e).handlers = s.handlers := by cases e <;> rfl
      split
      · exact .of_get? (by rw [hnoted])
      · intro z hz
        simp only [hnoted, Table.get?_insert]
        split
        next hk =>
          subst hk
          obtain rfl := Option.some.inj (hx.symm.trans hz)
          exact ⟨_, rfl, .inl rfl⟩
        · exact ⟨z, hz, .inl rfl⟩

/-- A sink goes on as it is until the host gives it up. -/
theorem retains_act (h : Sound (· ∈ s.held) s) (hold : k.number < s.store.fresh) (a : Act) :
    Retains k (s.GivesUp k a) s (s.act a) := by
  cases a with
  | command c => exact (retains_execute h hold c).mono (.command rfl)
  | step =>
    simp only [act, step]
    cases hp : s.pending with
    | nil => exact .of_get? rfl
    | cons t rest =>
      dsimp only
      cases t with
      | notify x new previous ls =>
        cases ls with
        | nil => exact .of_get? rfl
        | cons l ls =>
          refine .of_get? ?_
          simp only [doTask]
          split
          · exact congrArg (·.get? k) (handlers_tell _ new previous l)
          · rfl
      | deliver i e ks =>
        cases ks with
        | nil => exact .of_get? rfl
        | cons k' ks => exact retains_receive ({ s with pending := .deliver i e ks :: rest } : Session) e k'
      | perform label cs =>
        cases cs with
        | nil => exact .of_get? rfl
        | cons c cs =>
          have hc : s.carriedOut? .step = some ({ s with pending := .perform label cs :: rest }, c) := by
            simp only [carriedOut?, hp]
          exact (retains_execute (sound_carriedOut? h hc) hold c).mono (.command hc)
      | report label reply => exact .of_get? rfl
      | keep r =>
        have hlet := retains_letGo (k := k) { s with pending := rest } r
        exact hlet.mono fun hr => .ends rfl (hr ▸ hp)
      | adopt name k' =>
        have hadopt := retains_adopt (k := k) { s with pending := rest } name k'
        exact hadopt.mono fun hk => .replaces rfl hp hk

end Session

end DataBinding
