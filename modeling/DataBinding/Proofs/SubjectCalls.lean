import DataBinding.Proofs.SinkEvents

/-!
# What is asked of a subject

The host and its listeners ask subjects to send events. A subject does what it is asked for until it is asked to end,
and nothing after that. So what it holds can be read off what was asked of it (`Subject.After`): the latest value that it
was asked to send before its end, and the first end. Nothing else that happens changes a subject, but for its sinks
(`becomesSubject_act`).
-/

namespace DataBinding

namespace StreamEvent

/-- The value that the event brings. -/
def value? : StreamEvent → Option Value
  | next v => some v
  | error _ | complete => none

/-- The events up to the first that ends the stream. -/
def upToEnd : List StreamEvent → List StreamEvent
  | [] => []
  | e :: es => if e.isEnd then [e] else e :: upToEnd es

end StreamEvent

open StreamEvent (upToEnd)

/-- The subject `y` is what `x` becomes, but for its sinks, when it is asked for the events. -/
structure Subject.After (x : Subject) (es : List StreamEvent) (y : Subject) : Prop where
  replays : y.replays = x.replays
  latest : y.latest = if x.isClosed then x.latest else ((upToEnd es).filterMap StreamEvent.value?).getLast?.or x.latest
  terminal : y.terminal = x.terminal.or (es.find? StreamEvent.isEnd)

namespace Subject

variable {x y z : Subject} {e : StreamEvent} {es : List StreamEvent}

theorem after_nil (hreplays : y.replays = x.replays) (hlatest : y.latest = x.latest)
    (hterminal : y.terminal = x.terminal) : x.After [] y where
  replays := hreplays
  latest := by simp [hlatest, upToEnd]
  terminal := by simp [hterminal]

theorem after_emit (x : Subject) (v : Value) : x.After [.next v] (x.emit v).1 := by
  cases hc : x.isClosed with
  | true => constructor <;> simp [emit, hc, StreamEvent.isEnd]
  | false => constructor <;> simp [emit, hc, StreamEvent.isEnd, upToEnd, StreamEvent.value?]

theorem after_terminate (x : Subject) (he : e.isEnd = true) : x.After [e] (x.terminate e).1 := by
  have hvalue : e.value? = none := by
    cases e with
    | next v => cases he
    | error | complete => rfl
  cases hc : x.isClosed with
  | true =>
    obtain ⟨d, hd⟩ := Option.isSome_iff_exists.1 hc
    constructor <;> simp [terminate, hc, hd]
  | false =>
    have hterminal : x.terminal = none := by simpa [isClosed] using hc
    constructor <;> simp [terminate, hc, he, hterminal, upToEnd, hvalue]

theorem After.trans_nil (h : x.After [] y) (h' : y.After es z) : x.After es z := by
  have hterminal : y.terminal = x.terminal := by simpa using h.terminal
  have hlatest : y.latest = x.latest := by simpa [upToEnd] using h.latest
  have hclosed : y.isClosed = x.isClosed := by rw [isClosed, hterminal, isClosed]
  exact ⟨h'.replays.trans h.replays, by rw [h'.latest, hclosed, hlatest], by rw [h'.terminal, hterminal]⟩

theorem After.cons (h : x.After [e] y) (h' : y.After es z) : x.After (e :: es) z where
  replays := h'.replays.trans h.replays
  latest := by
    rw [h'.latest, h.latest, isClosed, h.terminal]
    cases hx : x.terminal with
    | some d => simp [isClosed, hx]
    | none =>
      cases e with
      | next v =>
        -- the value that was sent first is the latest if no other one follows
        have hlast (ws : List Value) : ws.getLast?.or (some v) = (v :: ws).getLast?.or x.latest := by
          rw [List.getLast?_cons]
          cases ws.getLast? <;> rfl
        have hopen : x.isClosed = false := by rw [isClosed, hx, Option.isSome_none]
        rw [hopen]
        exact hlast _
      | error | complete => simp [isClosed, hx, upToEnd, StreamEvent.isEnd, StreamEvent.value?]
  terminal := by
    rw [h'.terminal, h.terminal, Option.or_assoc]
    cases he : e.isEnd <;> simp [he]

end Subject

namespace Session

variable {g g' : Ghost} {s t : Session} {i j : StreamId} {k : Sink} {e : StreamEvent} {c : Command} {a : Act}
  {as bs : List Act} {x y : Subject}

/-- The event that a command asks a subject to send, and the subject. -/
def call? (s : Session) : Command → Option (StreamId × StreamEvent)
  | .next stream value => do
    let i ← s.named? .stream stream
    let (_, v) ← s.valueOf? value
    return (i, .next v)
  | .fail stream message => (s.named? .stream stream).map fun i => (i, .error message)
  | .complete stream => (s.named? .stream stream).map fun i => (i, .complete)
  | _ => none

/-- The events that a command asks a stream to send. -/
def calls (i : StreamId) (s : Session) (c : Command) : List StreamEvent :=
  match s.call? c with
  | some (j, e) => if j = i then [e] else []
  | none => []

/-- The events that an act asks a stream to send. -/
def callsOn (i : StreamId) (s : Session) (a : Act) : List StreamEvent :=
  match s.carriedOut? a with
  | some (t, c) => t.calls i c
  | none => []

/-- A subject is asked to send what it has to send, and sends it unless it has ended. -/
theorem announcement?_eq (s : Session) (c : Command) : s.announcement? c = (s.call? c).filter fun x => s.isOpen x.1 := by
  cases c with
  | next stream value =>
    simp only [announcement?, emission?, call?]
    cases s.named? .stream stream with
    | none => rfl
    | some i =>
      cases s.valueOf? value with
      | none => rfl
      | some w => cases hi : s.isOpen i <;> simp [hi, Option.filter_some]
  | fail stream message =>
    simp only [announcement?, ending?, call?]
    cases s.named? .stream stream with
    | none => rfl
    | some i => cases hi : s.isOpen i <;> simp [hi, Option.filter_some]
  | complete stream =>
    simp only [announcement?, ending?, call?]
    cases s.named? .stream stream with
    | none => rfl
    | some i => cases hi : s.isOpen i <;> simp [hi, Option.filter_some]
  | _ => rfl

/-! ### What commands make of a subject -/

/-- After it was asked for the events, the stream is a subject that did as it was asked. -/
def BecomesSubject (i : StreamId) (x : Subject) (es : List StreamEvent) (s : Session) : Prop :=
  ∃ y, s.store.streams.get? i = some (.subject y) ∧ x.After es y

theorem BecomesSubject.of_coreOf (hx : s.store.streams.get? i = some (.subject x)) (h : t.coreOf i = s.coreOf i) :
    t.BecomesSubject i x [] := by
  unfold coreOf at h
  rw [hx, Option.map_some] at h
  obtain ⟨y, hy, hxy⟩ := Option.map_eq_some_iff.1 h
  cases y with
  | cold => cases hxy
  | subject y =>
    obtain ⟨hlatest, hreplays, hterminal⟩ : y.latest = x.latest ∧ y.replays = x.replays ∧ y.terminal = x.terminal := by
      simpa [Stream.core] using hxy
    exact ⟨y, hy, Subject.after_nil hreplays hlatest hterminal⟩

theorem becomesSubject_terminate (hx : s.store.streams.get? i = some (.subject x)) (he : e.isEnd = true) :
    (s.terminate j e).session.BecomesSubject i x (if j = i then [e] else []) := by
  by_cases hj : j = i
  · subst hj
    rw [if_pos rfl, session_terminate hx]
    exact ⟨_, (Table.get?_insert ..).trans (if_pos rfl), x.after_terminate he⟩
  · rw [if_neg hj]
    refine .of_coreOf hx ?_
    unfold terminate
    split
    · exact coreOf_setStream_of_ne hj ..
    · rfl

theorem becomesSubject_emit (hx : s.store.streams.get? i = some (.subject x)) (j : StreamId) (v : Value) :
    (s.emit j v).session.BecomesSubject i x (if j = i then [.next v] else []) := by
  by_cases hj : j = i
  · subst hj
    rw [if_pos rfl]
    simp only [emit, hx]
    exact ⟨_, (Table.get?_insert ..).trans (if_pos rfl), x.after_emit v⟩
  · rw [if_neg hj]
    refine .of_coreOf hx ?_
    unfold emit
    split
    · exact coreOf_setStream_of_ne hj ..
    · rfl

theorem calls_of_tells (h : c.tells = false) : s.calls i c = [] := by
  cases c with
  | next | fail | complete => cases h
  | _ => rfl

theorem becomesSubject_next (h : Sound (· ∈ s.held) s) (hx : s.store.streams.get? i = some (.subject x))
    (stream : String) (value : HostValue) :
    (s.execute (.next stream value)).session.BecomesSubject i x (s.calls i (.next stream value)) := by
  cases hj : s.named? .stream stream with
  | none =>
    simp only [execute, answer?, answerNext, calls, call?, hj]
    exact .of_coreOf hx rfl
  | some j =>
    cases hv : s.valueOf? value with
    | none =>
      simp only [execute, answer?, answerNext, calls, call?, hj, hv]
      exact .of_coreOf hx rfl
    | some w =>
      obtain ⟨t, v⟩ := w
      obtain ⟨g', hm, -⟩ := made_valueOf? (g := s.bare) value h hv
      obtain ⟨objects, fresh, rfl, -⟩ := making_eq hm
      simp only [execute, answer?, answerNext, calls, call?, hj, hv]
      exact becomesSubject_emit (s := { s with store := { s.store with objects, fresh } }) hx j v

/-- A subject does what a command asks of it. -/
theorem becomesSubject_execute (h : Sound (· ∈ s.held) s) (hx : s.store.streams.get? i = some (.subject x))
    (c : Command) : (s.execute c).session.BecomesSubject i x (s.calls i c) := by
  cases htells : c.tells with
  | true =>
    cases c with
    | next stream value => exact becomesSubject_next h hx stream value
    | fail stream message =>
      simp only [execute, answer?, answerFail, calls, call?]
      cases hj : s.named? .stream stream with
      | none => exact .of_coreOf hx rfl
      | some j => exact becomesSubject_terminate hx rfl
    | complete stream =>
      simp only [execute, answer?, answerComplete, calls, call?]
      cases hj : s.named? .stream stream with
      | none => exact .of_coreOf hx rfl
      | some j => exact becomesSubject_terminate hx rfl
    | _ => cases htells
  | false =>
    rw [calls_of_tells htells]
    obtain ⟨g', hm, -⟩ := reacts_execute h (fun _ _ _ => False) c
    have hold : i.number < s.store.fresh := h.old (x := .stream i) (by simp [Store.Knows, hx])
    refine .of_coreOf hx (Moves.coreOf hm hold (fun v hv => ?_) fun d hd => ?_)
    · cases hv with
      | calm hf => rcases hf with (hf | hf) | hf <;> cases hf
      | emits he =>
        cases c with
        | next => cases htells
        | _ => cases he
    · cases hd with
      | calm hf => rcases hf with (hf | hf) | hf <;> cases hf
      | ends he =>
        cases c with
        | fail | complete => cases htells
        | _ => cases he

/-! ### Acts -/

/-- Without a command, nothing is asked of a stream. -/
theorem coreOf_act (h : Sound (· ∈ s.held) s) (hc : s.carriedOut? a = none) (hi : i.number < s.store.fresh) :
    (s.act a).coreOf i = s.coreOf i := by
  have hcalm {g g' : Ghost} {s s' : Session} {E : Effect → Prop} (hm : Moves E (g, s) (g', s'))
      (hE : ∀ f, E f → (∀ v, f ≠ .emits i v) ∧ ∀ d, f ≠ .ends i d) (hi : i.number < s.store.fresh) :
      s'.coreOf i = s.coreOf i :=
    Moves.coreOf hm hi (fun v hv => (hE _ hv).1 v rfl) fun d hd => (hE _ hd).2 d rfl
  have hsilent (f : Effect) (hf : Silent f) : (∀ v, f ≠ .emits i v) ∧ ∀ d, f ≠ .ends i d := by
    rcases hf with rfl | rfl <;> simp
  cases a with
  | command c => cases hc
  | step =>
    simp only [act, step]
    cases hp : s.pending with
    | nil => rfl
    | cons t rest =>
      have hleft : Sound (bare _).hand { s with pending := t.left ++ rest } := h.take hp t.left fun _ => within_left
      have hrest : Sound (bare _).hand { s with pending := rest } := h.take hp [] (by simp)
      dsimp only
      cases t with
      | notify x new previous ls =>
        cases ls with
        | nil => rfl
        | cons l ls =>
          simp only [doTask]
          split
          · obtain ⟨g', hm, -⟩ := reacts_tell hleft new previous l
            have hcore := hcalm hm (fun f hf => ?_) hi
            · exact hcore
            · rcases hf with (hf | rfl) | ⟨b, -, rfl | ⟨o, n, rfl⟩⟩
              · exact hsilent f hf
              all_goals simp
          · rfl
      | deliver j e ks =>
        cases ks with
        | nil => rfl
        | cons k ks =>
          have he : Within (bare _).hand (sharedInEvent e) := fun y hy =>
            hleft.outside.pending (t := .deliver j e ks) (by simp [Task.left]) y (List.mem_cons_of_mem _ hy)
          obtain ⟨g', hm, -⟩ := reacts_receive hleft he k
          have hcore := hcalm hm (fun f hf => ?_) hi
          · exact hcore
          · rcases hf with hf | ⟨o, -, rfl⟩
            · exact hsilent f hf
            · simp
      | perform label cs =>
        cases cs with
        | nil => rfl
        | cons c cs => simp [carriedOut?, hp] at hc
      | report label reply => rfl
      | keep r =>
        have hcore := hcalm (Moves.letGo hrest r) hsilent hi
        exact hcore
      | adopt name k =>
        let u : Session := { s with pending := rest }
        have hnamed : Moves Silent (u.bare, u) (u.bare, u.setName name k.ref) := .setNameOf hrest (by decide)
        have hcore := hcalm hnamed hsilent hi
        exact hcore

/-- A subject does what is asked of it, and nothing else that happens changes it but for its sinks. -/
theorem becomesSubject_act (h : Sound (· ∈ s.held) s) (hx : s.store.streams.get? i = some (.subject x)) (a : Act) :
    (s.act a).BecomesSubject i x (s.callsOn i a) := by
  unfold callsOn
  cases hc : s.carriedOut? a with
  | none =>
    have hold : i.number < s.store.fresh := h.old (x := .stream i) (by simp [Store.Knows, hx])
    exact .of_coreOf hx (coreOf_act h hc hold)
  | some p =>
    obtain ⟨t, c⟩ := p
    obtain ⟨ps, us, rfl, hact⟩ := eq_of_carriedOut? hc
    rw [hact]
    exact becomesSubject_execute (sound_carriedOut? h hc) hx c

theorem callsOn_eq (i : StreamId) (s : Session) (a : Act) : s.callsOn i a = [] ∨ ∃ e, s.callsOn i a = [e] := by
  unfold callsOn calls
  split
  · split
    · split
      · exact .inr ⟨_, rfl⟩
      · exact .inl rfl
    · exact .inl rfl
  · exact .inl rfl

/-- What a subject is after a run can be read off what it was asked for. -/
theorem becomesSubject_play (h : Sound (· ∈ s.held) s) (hx : s.store.streams.get? i = some (.subject x))
    (bs : List Act) : (s.play bs).BecomesSubject i x (along (callsOn i) s bs) := by
  induction bs generalizing s x with
  | nil => exact .of_coreOf hx rfl
  | cons a bs ih =>
    obtain ⟨y, hy, hxy⟩ := becomesSubject_act h hx a
    obtain ⟨z, hz, hyz⟩ := ih (h.act a) hy
    refine ⟨z, hz, ?_⟩
    rw [along]
    rcases callsOn_eq i s a with hnone | ⟨e, hone⟩
    · rw [hnone] at hxy ⊢
      exact hxy.trans_nil hyz
    · rw [hone] at hxy ⊢
      exact hxy.cons hyz

end Session

end DataBinding
