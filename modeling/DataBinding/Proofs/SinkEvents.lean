import DataBinding.Proofs.LatestValue
import DataBinding.Proofs.Outcomes

/-!
# What a sink is told

A subject that emits or ends sends the event to every sink that is on its roll at that moment (`eventsSent`), and the
sinks are told one by one while the work goes on. What a subject sends meanwhile goes before what is still due, and a
sink that gives its subscription up is told nevertheless what is due to it. So a sink is told each event that was sent
to it exactly once, but in the order of a stack (`stacks_events`); it is told in the order of sending if nothing is
sent to it while something is due (`Delivers.inOrder`). Nothing is sent to a sink after the end of its stream, nor
after its subscription was given up (`eventsSent_of_isMute`).
-/

namespace DataBinding

/-- The events that a task delivers to a sink. -/
def Task.eventsDue (k : Sink) : Task → List StreamEvent
  | .deliver _ e rest => List.replicate (rest.count k) e
  | _ => []

/-- Nothing follows the event. -/
def StreamEvent.isEnd : StreamEvent → Bool
  | next _ => false
  | error _ | complete => true

namespace Session

variable {g : Ghost} {s s' : Session} {i j : StreamId} {k : Sink} {e : StreamEvent} {a : Act} {as bs : List Act}

/-- The events that are still to be delivered to a sink. -/
def eventsDue (k : Sink) (s : Session) : List StreamEvent := s.pending.flatMap (Task.eventsDue k)

/-- The end of a subject that a command asks for, if the subject has not ended. -/
def ending? (s : Session) (stream : String) (e : StreamEvent) : Option (StreamId × StreamEvent) := do
  let i ← s.named? .stream stream
  if s.isOpen i then some (i, e) else none

/-- The event that a command has a subject send, and the subject. -/
def announcement? (s : Session) : Command → Option (StreamId × StreamEvent)
  | .next stream value => (s.emission? (.next stream value)).map fun x => (x.1, .next x.2)
  | .fail stream message => s.ending? stream (.error message)
  | .complete stream => s.ending? stream .complete
  | _ => none

/-- The event that an act has a subject send, and the subject. -/
def announced? (s : Session) (a : Act) : Option (StreamId × StreamEvent) :=
  (s.carriedOut? a).bind fun x => x.1.announcement? x.2

/-- Whether the sink is on the roll of the subject. -/
def isOnRoll (s : Session) (i : StreamId) (k : Sink) : Bool := (s.rollOf i).any fun x => x.sinks.any fun e => e.2 = k

/-- What an act sends to a sink. -/
def eventsSent (k : Sink) (s : Session) (a : Act) : List StreamEvent :=
  match s.announced? a with
  | some (i, e) => if s.isOnRoll i k then [e] else []
  | none => []

/-- What an act tells a sink. -/
def eventsTold (k : Sink) (s : Session) : Act → List StreamEvent
  | .command _ => []
  | .step =>
    match s.pending with
    | .deliver _ e (k' :: _) :: _ => if k' = k then [e] else []
    | _ => []

theorem isOnRoll_iff : s.isOnRoll i k = true ↔ ∃ x t, s.rollOf i = some x ∧ (t, k) ∈ x.sinks := by
  cases h : s.rollOf i <;> simp [isOnRoll, h]

/-! ### What commands send -/

theorem exists_of_isOpen (h : s.isOpen i = true) :
    ∃ x, s.store.streams.get? i = some (.subject x) ∧ x.isClosed = false := by
  unfold isOpen at h
  split at h
  next x hx => exact ⟨x, hx, by simpa using h⟩
  · cases h

/-- A subject that ends tells all its sinks. -/
theorem tasks_terminate {x : Subject} (hx : s.store.streams.get? i = some (.subject x)) (hopen : x.isClosed = false)
    (e : StreamEvent) : (s.terminate i e).tasks = [.deliver i e (x.sinks.map (·.2))] := by
  simp [terminate, hx, Subject.terminate, hopen]

theorem tasks_terminate_closed (h : s.isOpen i = false) (e : StreamEvent) :
    ∀ t ∈ (s.terminate i e).tasks, ∃ j d, t = .deliver j d [] := by
  unfold terminate
  split
  next x hx =>
    have hclosed : x.isClosed = true := by simpa [isOpen, hx] using h
    simp [Subject.terminate, hclosed]
  · simp

theorem session_terminate {x : Subject} (hx : s.store.streams.get? i = some (.subject x)) (e : StreamEvent) :
    (s.terminate i e).session = { s with store := s.store.setStream i (.subject (x.terminate e).1) } := by
  simp [terminate, hx]

/-- A command that has a subject send an event delivers it to the sinks on the roll. -/
theorem execute_of_announcement? (hsound : Sound g.hand s) {c : Command} (h : s.announcement? c = some (i, e)) :
    ∃ x, s.store.streams.get? i = some (.subject x) ∧ (s.execute c).tasks = [.deliver i e (x.sinks.map (·.2))] ∧
      (e.isEnd = true →
        (s.execute c).session = { s with store := s.store.setStream i (.subject (x.terminate e).1) }) := by
  have hending : ∀ {stream : String} {d : StreamEvent}, s.ending? stream d = some (i, e) →
      d = e ∧ s.named? .stream stream = some i ∧ s.isOpen i = true := by
    intro stream d hd
    obtain ⟨j, hj, hd⟩ := Option.bind_eq_some_iff.1 hd
    split at hd
    next hopen =>
      obtain ⟨rfl, rfl⟩ := Prod.mk.inj (Option.some.inj hd)
      exact ⟨rfl, hj, hopen⟩
    · cases hd
  cases c with
  | next stream value =>
    obtain ⟨⟨j, v⟩, hv, he⟩ := Option.map_eq_some_iff.1 h
    obtain ⟨rfl, rfl⟩ := Prod.mk.inj he
    obtain ⟨x, hx, -, -, htasks⟩ := execute_of_emission? hsound hv
    exact ⟨x, hx, htasks, nofun⟩
  | fail stream message =>
    obtain ⟨rfl, hi, hopen⟩ := hending h
    obtain ⟨x, hx, hclosed⟩ := exists_of_isOpen hopen
    refine ⟨x, hx, ?_, fun _ => ?_⟩
    · simpa [execute, answer?, answerFail, hi, Reaction.answer] using tasks_terminate hx hclosed _
    · simpa [execute, answer?, answerFail, hi, Reaction.answer] using session_terminate hx _
  | complete stream =>
    obtain ⟨rfl, hi, hopen⟩ := hending h
    obtain ⟨x, hx, hclosed⟩ := exists_of_isOpen hopen
    refine ⟨x, hx, ?_, fun _ => ?_⟩
    · simpa [execute, answer?, answerComplete, hi, Reaction.answer] using tasks_terminate hx hclosed _
    · simpa [execute, answer?, answerComplete, hi, Reaction.answer] using session_terminate hx _
  | _ => cases h

/-- Otherwise a subject that is asked to send something has ended, and sends nothing. -/
theorem execute_of_announcement?_none (hsound : Sound g.hand s) {c : Command} (hc : c.tells = true)
    (h : s.announcement? c = none) : ∀ t ∈ (s.execute c).tasks, ∃ j d, t = .deliver j d [] := by
  have hending : ∀ {stream : String} {d : StreamEvent} {i : StreamId}, s.ending? stream d = none →
      s.named? .stream stream = some i → s.isOpen i = false := by
    intro stream d i hd hi
    cases hopen : s.isOpen i with
    | false => rfl
    | true => simp [ending?, hi, hopen] at hd
  cases c with
  | next stream value =>
    exact tasks_of_emission?_none hsound (Option.map_eq_none_iff.1 h)
  | fail stream message =>
    simp only [execute, answer?, answerFail]
    cases hi : s.named? .stream stream with
    | none => simp
    | some i => exact tasks_terminate_closed (hending h hi) _
  | complete stream =>
    simp only [execute, answer?, answerComplete]
    cases hi : s.named? .stream stream with
    | none => simp
    | some i => exact tasks_terminate_closed (hending h hi) _
  | _ => cases hc

/-! ### What acts send -/

theorem carriedOut?_of_notify {x : Source} {new previous : Value} {ls : List Listener} {rest : List Task}
    (h : s.pending = .notify x new previous ls :: rest) : s.carriedOut? .step = none := by
  simp [carriedOut?, h]

theorem carriedOut?_of_deliver {ks : List Sink} {rest : List Task} (h : s.pending = .deliver i e ks :: rest) :
    s.carriedOut? .step = none := by
  simp [carriedOut?, h]

/-- A subject that there is has its sinks on its roll. -/
theorem isOnRoll_iff_mem {x : Subject} (hx : s.store.streams.get? i = some (.subject x)) :
    s.isOnRoll i k = true ↔ k ∈ x.sinks.map (·.2) := by
  rw [isOnRoll_iff]
  constructor
  · rintro ⟨x', t, hx', ht⟩
    obtain rfl := Option.some.inj ((rollOf_of_get? hx).symm.trans hx')
    exact List.mem_map.2 ⟨(t, k), ht, rfl⟩
  · intro hk
    obtain ⟨⟨t, k⟩, ht, rfl⟩ := List.mem_map.1 hk
    exact ⟨_, t, rollOf_of_get? hx, ht⟩

/-- No sink is on the roll of a subject twice. -/
theorem nodup_sinks (hw : Wired s) {x : Subject} (hx : s.store.streams.get? i = some (.subject x)) :
    (x.sinks.map (·.2)).Nodup := by
  have howned : ∀ e ∈ x.sinks, s.subscriptionOf e.2 = some (.subject i e.1) :=
    fun e he => hw.owned (rollOf_of_get? hx) (t := e.1) he
  refine List.pairwise_map.2 (x.ascending.imp_of_mem fun {e f} he hf hlt hef => ?_)
  have hsame := (howned e he).symm.trans (hef ▸ howned f hf)
  obtain ⟨-, ht⟩ := Subscription.subject.inj (Option.some.inj hsame)
  exact Nat.lt_irrefl _ (ht ▸ hlt)

theorem count_sinks (hw : Wired s) {x : Subject} (hx : s.store.streams.get? i = some (.subject x)) :
    (x.sinks.map (·.2)).count k = if s.isOnRoll i k then 1 else 0 := by
  rw [(nodup_sinks hw hx).count]
  exact if_congr (isOnRoll_iff_mem hx).symm rfl rfl

theorem eventsDue_of_quiet {n : Nat} {ts : List Task} (h : Quiet n ts) (hk : k ≠ .handler ⟨n⟩) :
    ts.flatMap (Task.eventsDue k) = [] := by
  refine List.flatMap_eq_nil_iff.2 fun t ht => ?_
  have hq := h t ht
  unfold Task.eventsDue
  split
  next rest =>
    obtain rfl : rest = [.handler ⟨n⟩] := hq
    simp [Ne.symm hk]
  · rfl

theorem eventsDue_of_delivered {ts : List Task} (h : ∀ t ∈ ts, ∃ j d, t = Task.deliver j d []) :
    ts.flatMap (Task.eventsDue k) = [] := by
  refine List.flatMap_eq_nil_iff.2 fun t ht => ?_
  obtain ⟨j, d, rfl⟩ := h t ht
  rfl

/-- What an act leads to delivers to a sink what the act sends to it. -/
theorem eventsDue_started (hsound : Sound (· ∈ s.held) s) (hw : Wired s) (hk : k.number < s.store.fresh) (a : Act) :
    (s.started a).flatMap (Task.eventsDue k) = s.eventsSent k a := by
  have hnew : k ≠ .handler ⟨s.store.fresh⟩ := by
    rintro rfl
    exact Nat.lt_irrefl _ hk
  have hnone : s.carriedOut? a = none → s.eventsSent k a = [] := by
    intro hc
    simp [eventsSent, announced?, hc]
  obtain ⟨r, ho, -, htasks, -⟩ := exists_outcome hsound a
  rw [← htasks]
  cases ho with
  | @command t c ts hc hts =>
    have hreports : ts.flatMap (Task.eventsDue k) = [] := by
      refine List.flatMap_eq_nil_iff.2 fun t' ht' => ?_
      obtain ⟨label, reply, rfl⟩ := hts t' ht'
      rfl
    have hsound' := sound_carriedOut? hsound hc
    rw [List.flatMap_append, hreports, List.append_nil]
    obtain ⟨ps, -, rfl, -⟩ := eq_of_carriedOut? hc
    have hsent : s.eventsSent k a = match ({ s with pending := ps } : Session).announcement? c with
        | some (i, e) => if s.isOnRoll i k then [e] else []
        | none => [] := by simp [eventsSent, announced?, hc]
    rw [hsent]
    cases hannounced : ({ s with pending := ps } : Session).announcement? c with
    | some x =>
      obtain ⟨i, e⟩ := x
      obtain ⟨x, hx, htasks, -⟩ := execute_of_announcement? (g := bare _) hsound' hannounced
      rw [htasks]
      simp only [List.flatMap_cons, List.flatMap_nil, List.append_nil, Task.eventsDue, count_sinks hw hx]
      split <;> rfl
    | none =>
      cases hc : c.tells with
      | true => exact eventsDue_of_delivered (execute_of_announcement?_none (g := bare _) hsound' hc hannounced)
      | false =>
        have hquiet := quiet_execute (s := { s with pending := ps }) hc
        exact eventsDue_of_quiet hquiet hnew
  | tell ha hp =>
    subst ha
    rw [hnone (carriedOut?_of_notify hp)]
    exact eventsDue_of_quiet (quiet_tell _ _ _) hnew
  | receive ha hp =>
    subst ha
    rw [hnone (carriedOut?_of_deliver hp)]
    exact eventsDue_of_quiet (quiet_receive _ _) hnew
  | still hc => exact (hnone hc).symm

/-- What is due to a sink is told from the front, and what is sent to it goes before. -/
theorem stacks_events (hsound : Sound (· ∈ s.held) s) (hw : Wired s) (hk : k.number < s.store.fresh) (a : Act) :
    Stacks (eventsDue k) (eventsTold k) (eventsSent k) s a := by
  refine ⟨(s.remaining a).flatMap (Task.eventsDue k), ?_, ?_⟩
  · cases a with
    | command c => rfl
    | step =>
      unfold eventsDue eventsTold remaining
      cases s.pending with
      | nil => rfl
      | cons t rest =>
        match t with
        | .deliver j e (k' :: ks) =>
          by_cases hk' : k' = k <;> simp [Task.left, Task.eventsDue, hk', List.replicate_succ]
        | .deliver _ _ [] | .notify _ _ _ [] | .notify _ _ _ (_ :: _) | .perform _ [] | .perform _ (_ :: _)
        | .report .. | .keep .. | .adopt .. => rfl
  · rw [eventsDue, pending_act hsound, List.flatMap_append, eventsDue_started hsound hw hk]

/-! ### Sinks that are sent nothing any more -/

/-- No subject has the sink on its roll. -/
def IsMute (s : Session) (k : Sink) : Prop := ∀ i, s.isOnRoll i k = false

/-- Nobody who was there comes onto a roll again. -/
theorem isOnRoll_of_rewires (hr : Rewires s s') (hk : k.number < s.store.fresh) (h : s'.isOnRoll i k = true) :
    s.isOnRoll i k = true := by
  obtain ⟨x', t, hx', ht⟩ := isOnRoll_iff.1 h
  refine isOnRoll_iff.2 ?_
  cases hr with
  | same hs hr => exact ⟨x', t, hr ▸ hx', ht⟩
  | @left _ c _ _ _ _ hr =>
    rw [hr] at hx'
    obtain ⟨x, hx, rfl⟩ := Option.map_eq_some_iff.1 hx'
    refine ⟨x, t, hx, ?_⟩
    unfold Roll.without at ht
    split at ht
    · split at ht
      · exact (List.mem_filter.1 ht).1
      · exact ht
    · exact ht
  | @joined k' j hk' hf hs hr =>
    rw [hr] at hx'
    obtain ⟨x, hx, rfl⟩ := Option.map_eq_some_iff.1 hx'
    refine ⟨x, t, hx, ?_⟩
    split at ht
    · unfold Roll.add at ht
      split at ht
      · exact ht
      · refine (List.mem_append.1 ht).resolve_right fun hnew => ?_
        obtain ⟨-, rfl⟩ := Prod.mk.inj (List.mem_singleton.1 hnew)
        omega
    · exact ht
  | @ended j hs hr =>
    rw [hr] at hx'
    obtain ⟨x, hx, rfl⟩ := Option.map_eq_some_iff.1 hx'
    refine ⟨x, t, hx, ?_⟩
    split at ht
    · cases ht
    · exact ht
  | @made j hj hf hs hr hx =>
    by_cases hij : j = i
    · subst hij
      simp [hx x' hx'] at ht
    · exact ⟨x', t, hr i hij ▸ hx', ht⟩

theorem Moves.isOnRoll {E : Effect → Prop} {p q : Ghost × Session} (hm : Moves E p q) (hw : Wired p.2)
    (hsound : Sound p.1.hand p.2) (hk : k.number < p.2.store.fresh) (h : q.2.isOnRoll i k = true) :
    p.2.isOnRoll i k = true := by
  induction hm with
  | refl => exact h
  | tail hm hlast ih =>
    obtain ⟨f, -, hlast⟩ := hlast
    have hrewires := hlast.rewires (hw.moves hm hsound).released
    exact ih (isOnRoll_of_rewires hrewires (Nat.lt_of_lt_of_le hk (Moves.fresh_le hm)) h)

theorem isMute_of_subscription (hw : Wired s) (h : ∀ i t, s.subscriptionOf k ≠ some (.subject i t)) : s.IsMute k := by
  intro i
  refine Bool.eq_false_iff.2 fun hi => ?_
  obtain ⟨x, t, hx, ht⟩ := isOnRoll_iff.1 hi
  exact h i t (hw.owned hx ht)

theorem eventsSent_of_isMute (h : s.IsMute k) (a : Act) : s.eventsSent k a = [] := by
  unfold eventsSent
  split
  next i e _ => rw [if_neg (Bool.eq_false_iff.1 (h i))]
  · rfl

/-! ### Runs -/

/-- What every state of a run is that a sink has been made in. -/
structure Settled (k : Sink) (s : Session) : Prop where
  sound : Sound (· ∈ s.held) s
  wired : Wired s
  old : k.number < s.store.fresh

theorem Settled.act (h : Settled k s) (a : Act) : Settled k (s.act a) := by
  obtain ⟨g, hm⟩ := moves_act h.sound (fun _ _ _ => False) a
  exact ⟨h.sound.act a, h.wired.moves hm h.sound, Nat.lt_of_lt_of_le h.old (Moves.fresh_le hm)⟩

theorem Settled.isOnRoll_act (h : Settled k s) (hi : (s.act a).isOnRoll i k = true) : s.isOnRoll i k = true := by
  obtain ⟨g, hm⟩ := moves_act h.sound (fun _ _ _ => False) a
  exact Moves.isOnRoll hm h.wired h.sound h.old hi

theorem Settled.isMute_act (h : Settled k s) (hmute : s.IsMute k) (a : Act) : (s.act a).IsMute k :=
  fun i => Bool.eq_false_iff.2 fun hi => Bool.eq_false_iff.1 (hmute i) (h.isOnRoll_act hi)

/-- A sink is mute once its subject has sent it its end. -/
theorem Settled.isMute_of_isEnd (h : Settled k s) (hsent : s.eventsSent k a = [e]) (he : e.isEnd = true) :
    (s.act a).IsMute k := by
  unfold eventsSent at hsent
  split at hsent
  next i d hannounced =>
    split at hsent
    next honroll =>
      obtain rfl := List.singleton_inj.1 hsent
      obtain ⟨⟨t, c⟩, hc, hannounced⟩ := Option.bind_eq_some_iff.1 hannounced
      obtain ⟨x, hx, -, hsession⟩ := execute_of_announcement? (g := bare _) (sound_carriedOut? h.sound hc) hannounced
      obtain ⟨-, us, -, hact⟩ := eq_of_carriedOut? hc
      intro j
      refine Bool.eq_false_iff.2 fun hj => ?_
      -- the sink was on one roll, and that one is empty now
      obtain ⟨y, u, hy, hu⟩ := isOnRoll_iff.1 (h.isOnRoll_act hj)
      obtain ⟨y', u', hy', hu'⟩ := isOnRoll_iff.1 honroll
      have hsame := (h.wired.owned hy hu).symm.trans (h.wired.owned hy' hu')
      obtain ⟨rfl, -⟩ := Subscription.subject.inj (Option.some.inj hsame)
      obtain ⟨z, v, hz, hv⟩ := isOnRoll_iff.1 hj
      have hroll : (s.act a).rollOf j = some (Roll.of x).ended := by
        rw [hact]
        show (t.execute c).session.rollOf j = _
        rw [hsession he, rollOf_setStream, if_pos rfl, Roll.ofStream, ofStream_terminate]
      obtain rfl := Option.some.inj (hroll.symm.trans hz)
      cases hv
    · cases hsent
  · cases hsent

theorem Settled.stacked (h : Settled k s) (bs : List Act) :
    AtEach (Stacks (eventsDue k) (eventsTold k) (eventsSent k)) s bs :=
  .of_invariant (fun _ a hs => hs.act a) (fun _ a hs => stacks_events hs.sound hs.wired hs.old a) h

theorem Settled.sent_of_isMute (h : Settled k s) (hmute : s.IsMute k) (bs : List Act) :
    along (eventsSent k) s bs = [] :=
  along_eq_nil (.of_invariant (I := fun s => Settled k s ∧ s.IsMute k)
    (fun _ a hs => ⟨hs.1.act a, hs.1.isMute_act hs.2 a⟩) (fun _ a hs => eventsSent_of_isMute hs.2 a) ⟨h, hmute⟩)

/-- Nothing is sent to a sink after the end of its stream. -/
theorem Settled.pairwise_sent (h : Settled k s) (bs : List Act) :
    (along (eventsSent k) s bs).Pairwise fun e _ => e.isEnd = false := by
  induction bs generalizing s with
  | nil => exact .nil
  | cons a bs ih =>
    have hlater := ih (h.act a)
    cases hsent : s.eventsSent k a with
    | nil => simpa [along, hsent] using hlater
    | cons e es =>
      have hone : s.eventsSent k a = [e] := by
        unfold eventsSent at hsent ⊢
        split at hsent
        · split at hsent
          next hi =>
            obtain ⟨rfl, -⟩ := List.cons.inj hsent
            simp [*]
          · cases hsent
        · cases hsent
      rw [along, hone, List.singleton_append]
      refine List.pairwise_cons.2 ⟨fun d hd => Bool.eq_false_iff.2 fun he => ?_, hlater⟩
      rw [(h.act a).sent_of_isMute (h.isMute_of_isEnd hone he)] at hd
      cases hd

/-! ### Sinks of the host -/

/-- The host keeps its sinks. -/
theorem Move.isSome_handler {f : Effect} {p q : Ghost × Session} {n : SinkId} (hm : Move f p q)
    (h : (p.2.handlers.get? n).isSome) : (q.2.handlers.get? n).isSome := by
  cases hm with
  | destroying | erasing => simpa using h
  | releasing | subscribing | handler =>
    simp only [close_handlers, Table.get?_insert]
    split
    · rfl
    · exact h
  | _ => exact h

theorem Moves.isSome_handler {E : Effect → Prop} {p q : Ghost × Session} {n : SinkId} (hm : Moves E p q)
    (h : (p.2.handlers.get? n).isSome) : (q.2.handlers.get? n).isSome := by
  induction hm with
  | refl => exact h
  | tail _ hlast ih =>
    obtain ⟨f, -, hlast⟩ := hlast
    exact hlast.isSome_handler ih

/-- How an event is written down for a sink. -/
def eventEntry (s : Session) (label : String) : StreamEvent → LogEntry
  | .next v => .next label (s.view v)
  | .error message => .error label message
  | .complete => .complete label

theorem log_noteEvent (s : Session) (label : String) (e : StreamEvent) :
    (s.noteEvent label e).log = s.log ++ [s.eventEntry label e] := by
  cases e <;> rfl

/-- A sink of the host writes down what it is told. -/
theorem log_of_eventsTold {n : SinkId} {x : Handler} (hx : s.handlers.get? n = some x)
    (h : s.eventsTold (.handler n) a = [e]) : (s.act a).log = s.log ++ [s.eventEntry x.label e] := by
  cases a with
  | command c => cases h
  | step =>
    unfold eventsTold at h
    dsimp only at h
    split at h
    next i d k ks rest hp =>
      split at h
      next hk =>
        subst hk
        obtain rfl := List.singleton_inj.1 h
        have hlog := log_noteEvent ({ s with pending := .deliver i d ks :: rest } : Session) x.label d
        simp only [act, step, hp, doTask, push, receive, hx]
        split <;> exact hlog
      · cases h
    · cases h

/-- What the host's sink `n` is told in a run. -/
structure Delivers (n : SinkId) (s : Session) (bs : List Act) : Prop where
  /-- It writes down what it is told. -/
  written : AtEach (fun s a => ∀ e, s.eventsTold (.handler n) a = [e] →
    ∃ x, s.handlers.get? n = some x ∧ (s.act a).log = s.log ++ [s.eventEntry x.label e]) s bs
  /-- It is told from the front of what is due, and what is sent to it goes before the rest. -/
  stacked : AtEach (Stacks (eventsDue (.handler n)) (eventsTold (.handler n)) (eventsSent (.handler n))) s bs
  /-- It is told each event that was due or is sent to it once, unless the event is still due. -/
  once : (along (eventsTold (.handler n)) s bs ++ (s.play bs).eventsDue (.handler n)).Perm
    (s.eventsDue (.handler n) ++ along (eventsSent (.handler n)) s bs)
  /-- It is told in order if nothing is sent to it while something is due to it. -/
  inOrder : AtEach (fun s a => s.eventsSent (.handler n) a ≠ [] → s.eventsDue (.handler n) = []) s bs →
    along (eventsTold (.handler n)) s bs ++ (s.play bs).eventsDue (.handler n) =
      s.eventsDue (.handler n) ++ along (eventsSent (.handler n)) s bs
  /-- Nothing is sent to it after the end of its stream. -/
  ended : (along (eventsSent (.handler n)) s bs).Pairwise fun e _ => e.isEnd = false
  /-- When it has given up its subscription, it is sent nothing any more, and told what is due to it. -/
  released : (∀ i t, s.subscriptionOf (.handler n) ≠ some (.subject i t)) →
    along (eventsSent (.handler n)) s bs = [] ∧
      along (eventsTold (.handler n)) s bs ++ (s.play bs).eventsDue (.handler n) = s.eventsDue (.handler n)

theorem settled_of_handler {n : SinkId} (h : ((initial.play as).handlers.get? n).isSome) :
    Settled (.handler n) (initial.play as) := by
  obtain ⟨opened, hkept, -⟩ := exists_kept as
  refine ⟨sound_initial.play as, hkept.wired, hkept.wired.old (k := .handler n) ?_⟩
  rw [subscriptionOf, Option.isSome_map]
  exact h

/-- Whatever happens, a sink of the host is told what was sent to it. -/
theorem delivers_play (as bs : List Act) {n : SinkId} (hn : ((initial.play as).handlers.get? n).isSome) :
    Delivers n (initial.play as) bs := by
  have hsettled := settled_of_handler hn
  have hstacks := hsettled.stacked bs
  constructor
  case written =>
    refine .of_invariant (I := fun s => Sound (· ∈ s.held) s ∧ (s.handlers.get? n).isSome) (fun s a hs => ?_)
      (fun s a hs e he => ?_) ⟨hsettled.sound, hn⟩
    · obtain ⟨g, hm⟩ := moves_act hs.1 (fun _ _ _ => False) a
      exact ⟨hs.1.act a, Moves.isSome_handler hm hs.2⟩
    · obtain ⟨x, hx⟩ := Option.isSome_iff_exists.1 hs.2
      exact ⟨x, hx, log_of_eventsTold hx he⟩
  case stacked => exact hstacks
  case once => exact perm_along hstacks
  case inOrder => exact along_eq hstacks
  case ended => exact hsettled.pairwise_sent bs
  case released =>
    intro hclosed
    have hmute := isMute_of_subscription hsettled.wired hclosed
    have hsent := hsettled.sent_of_isMute hmute bs
    refine ⟨hsent, ?_⟩
    have hall := along_eq hstacks (.of_invariant (I := fun s => Settled (.handler n) s ∧ s.IsMute (.handler n))
      (fun _ a hs => ⟨hs.1.act a, hs.1.isMute_act hs.2 a⟩)
      (fun _ a hs hne => absurd (eventsSent_of_isMute hs.2 a) hne) ⟨hsettled, hmute⟩)
    rw [hall, hsent, List.append_nil]

/-- The sink `b` is taken off by the sink `a`, which is told a value before it, and is told the value nevertheless. -/
theorem delivers_play_released :
    let as : List Act := [.command (.makeSubject "s" none), .command (.subscribe "a" "s" [.unsubscribe "b"] 1), .step,
      .command (.subscribe "b" "s" [] 1), .step, .command (.next "s" (.int 1)), .step, .step]
    let s := initial.play as
    s.subscriptionOf (.handler ⟨3⟩) = some .closed ∧
      along (eventsTold (.handler ⟨3⟩)) s (List.replicate 5 .step) = [.next (.int 1)] := by
  intro as s
  have hclosed : s.subscriptionOf (.handler ⟨3⟩) = some .closed := by decide +kernel
  have hsome : (s.handlers.get? ⟨3⟩).isSome = true := by decide +kernel
  have hall := ((delivers_play as (List.replicate 5 .step) hsome).released (by simp [s, hclosed])).2
  have hbefore : s.eventsDue (.handler ⟨3⟩) = [.next (.int 1)] := rfl
  have hafter : (s.play (List.replicate 5 .step)).eventsDue (.handler ⟨3⟩) = [] :=
    List.isEmpty_iff.1 (by decide +kernel)
  refine ⟨hclosed, ?_⟩
  rw [← hbefore, ← hall, hafter, List.append_nil]

/-- So a sink may be told of a value after its subscription was given up. -/
theorem not_silent_after_release :
    ¬∀ (as bs : List Act) (n : SinkId), (initial.play as).subscriptionOf (.handler n) = some .closed →
      along (eventsTold (.handler n)) (initial.play as) bs = [] := by
  intro h
  have htold := h [.command (.makeSubject "s" none), .command (.subscribe "a" "s" [.unsubscribe "b"] 1), .step,
    .command (.subscribe "b" "s" [] 1), .step, .command (.next "s" (.int 1)), .step, .step]
    (.replicate 5 .step) ⟨3⟩
    (by decide +kernel)
  exact absurd (congrArg List.length htold) (by decide +kernel)

end Session

end DataBinding
