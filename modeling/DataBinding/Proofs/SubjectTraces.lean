import Mathlib.Data.Set.Card
import DataBinding.Proofs.SinkHandles
import DataBinding.Proofs.SubjectCalls

/-!
# What the sinks of a subject are told

A sink of the host that subscribes to a subject is greeted with the latest value if the subject replays it, and with
the end if there was one. After that it is told what the subject is asked for, as long as the sink is subscribed and the
subject has not ended (`Follows.along_eventsSent`), in this order unless the subject is asked for something while the
sink has not been told everything yet (`Waits`). It is subscribed from when it subscribed, if the subject had not ended,
until the host gives it up.
-/

namespace DataBinding

open StreamEvent (upToEnd)

namespace Session

variable {s t : Session} {i j : StreamId} {k : Sink} {n : SinkId} {l : String} {e : StreamEvent} {a : Act}
  {as bs : List Act} {x y : Subject}

/-- Whether the sink has a subscription to the subject. -/
def isSubscribed (s : Session) (i : StreamId) (k : Sink) : Bool :=
  match s.subscriptionOf k with
  | some (.subject j _) => j = i
  | _ => false

theorem isSubscribed_iff : s.isSubscribed i k = true ↔ ∃ m, s.subscriptionOf k = some (.subject i m) := by
  unfold isSubscribed
  split
  next j m hk => simp [hk]
  next hnot =>
    refine ⟨nofun, fun ⟨m, hm⟩ => absurd hm (hnot i m)⟩

theorem isOpen_eq (hx : s.store.streams.get? i = some (.subject x)) : s.isOpen i = x.terminal.isNone := by
  simp [isOpen, hx, Subject.isClosed]

/-- Those are on the roll of a subject that has not ended who are subscribed to it. -/
theorem isOnRoll_eq (hw : Wired s) (he : Enrolled s) : s.isOnRoll i k = (s.isOpen i && s.isSubscribed i k) := by
  rw [Bool.eq_iff_iff, Bool.and_eq_true, isSubscribed_iff]
  constructor
  · intro hk
    obtain ⟨z, m, hz, hm⟩ := isOnRoll_iff.1 hk
    refine ⟨?_, m, hw.owned hz hm⟩
    obtain ⟨st, hst, hroll⟩ := Option.bind_eq_some_iff.1 hz
    cases st with
    | cold => cases hroll
    | subject x =>
      obtain rfl := Option.some.inj hroll
      rw [isOpen_eq hst]
      cases hx : x.terminal with
      | none => rfl
      | some d =>
        have hnil : x.sinks = [] := x.released (by simp [hx])
        rw [Roll.of, hnil] at hm
        cases hm
  · rintro ⟨hopen, m, hm⟩
    obtain ⟨x, hx, hclosed⟩ := exists_of_isOpen hopen
    exact isOnRoll_iff.2 ⟨_, m, rollOf_of_get? hx, he hm (rollOf_of_get? hx) hclosed⟩

/-- A subject counts the sinks that are subscribed to it and that it has not ended for. -/
theorem length_sinks (hw : Wired s) (he : Enrolled s) (hx : s.store.streams.get? i = some (.subject x)) :
    x.sinks.length = {k | s.isSubscribed i k = true ∧ x.terminal = none}.ncard := by
  have hset : {k | s.isSubscribed i k = true ∧ x.terminal = none} = ↑(x.sinks.map (·.2)).toFinset := by
    ext k
    have hroll := isOnRoll_iff_mem hx (k := k)
    rw [isOnRoll_eq hw he, isOpen_eq hx, Bool.and_eq_true, Option.isNone_iff_eq_none] at hroll
    rw [List.coe_toFinset]
    exact and_comm.trans hroll
  rw [hset, Set.ncard_coe_finset, List.toFinset_card_of_nodup (nodup_sinks hw hx), List.length_map]

/-! ### Sinks that follow a subject -/

/-- What an act asks of the subject while the sink is subscribed to it. -/
def callsHeard (i : StreamId) (k : Sink) (s : Session) (a : Act) : List StreamEvent :=
  if s.isSubscribed i k then s.callsOn i a else []

/-- A sink of the host with the label, which has never been subscribed to anything but the subject. -/
structure Follows (i : StreamId) (n : SinkId) (l : String) (s : Session) : Prop extends Settled (.handler n) s where
  enrolled : Enrolled s
  alone {j : StreamId} {m : Nat} : s.subscriptionOf (.handler n) = some (.subject j m) → j = i
  labelled : ∃ z, s.handlers.get? n = some z ∧ z.label = l
  subject : ∃ x, s.store.streams.get? i = some (.subject x)

/-- A sink of a subject is sent what the subject is asked for while it has not ended and the sink is subscribed. -/
theorem Follows.eventsSent_eq (h : Follows i n l s) (a : Act) :
    s.eventsSent (.handler n) a = if s.isOpen i then s.callsHeard i (.handler n) a else [] := by
  unfold eventsSent announced? callsHeard callsOn
  cases hc : s.carriedOut? a with
  | none => simp
  | some p =>
    obtain ⟨t, c⟩ := p
    obtain ⟨ps, us, rfl, -⟩ := eq_of_carriedOut? hc
    have hasked (j : StreamId) : ({ s with pending := ps } : Session).isOpen j = s.isOpen j := rfl
    simp only [Option.bind_some, announcement?_eq, hasked, calls]
    cases hcall : ({ s with pending := ps } : Session).call? c with
    | none => simp
    | some q =>
      obtain ⟨j, e⟩ := q
      rw [Option.filter_some]
      by_cases hj : j = i
      · subst hj
        cases hopen : s.isOpen j <;> simp [isOnRoll_eq h.wired h.enrolled, hopen]
      · -- the sink is on the roll of no other subject
        have hnot : s.isOnRoll j (.handler n) = false := by
          refine Bool.eq_false_iff.2 fun hroll => hj ?_
          obtain ⟨z, m, hz, hm⟩ := isOnRoll_iff.1 hroll
          exact h.alone (h.wired.owned hz hm)
        cases hopen : s.isOpen j <;> simp [hj, hnot]

theorem Follows.act (h : Follows i n l s) (a : Act) : Follows i n l (s.act a) := by
  obtain ⟨z, hz, hlabel⟩ := h.labelled
  obtain ⟨z', hz', hcore⟩ := retains_act h.sound h.old a z hz
  obtain ⟨g, hm⟩ := moves_act h.sound (fun _ _ _ => False) a
  obtain ⟨x, hx⟩ := h.subject
  obtain ⟨y, hy, -⟩ := becomesSubject_act h.sound hx a
  refine { h.toSettled.act a with
    enrolled := h.enrolled.moves hm h.sound h.wired
    alone := fun hm => ?_
    labelled := ⟨z', hz', ?_⟩
    subject := ⟨y, hy⟩ }
  · rw [subscriptionOf, hz', Option.map_some] at hm
    rcases hcore with hcore | ⟨-, hcore⟩
    · have hsame : z'.subscription = z.subscription := (congrArg Handler.subscription hcore :)
      have hbefore : s.subscriptionOf (.handler n) = some z.subscription := by rw [subscriptionOf, hz, Option.map_some]
      exact h.alone (hbefore.trans (hsame ▸ hm))
    · have hclosed : z'.subscription = .closed := (congrArg Handler.subscription hcore :)
      rw [hclosed] at hm
      cases hm
  · rw [← hlabel]
    rcases hcore with hcore | ⟨-, hcore⟩ <;> exact (congrArg Handler.label hcore :)

/-- A sink stays subscribed until the host gives it up, and nobody subscribes it again. -/
theorem Follows.isSubscribed_act (h : Follows i n l s) (a : Act) :
    ((s.act a).isSubscribed i (.handler n) = true → s.isSubscribed i (.handler n) = true) ∧
      (s.isSubscribed i (.handler n) = true → ¬s.GivesUp n a → (s.act a).isSubscribed i (.handler n) = true) := by
  obtain ⟨z, hz, -⟩ := h.labelled
  obtain ⟨z', hz', hcore⟩ := retains_act h.sound h.old a z hz
  have hbefore : s.subscriptionOf (.handler n) = some z.subscription := by rw [subscriptionOf, hz, Option.map_some]
  have hafter : (s.act a).subscriptionOf (.handler n) = some z'.subscription := by
    rw [subscriptionOf, hz', Option.map_some]
  rcases hcore with hcore | ⟨hgives, hcore⟩
  · have hsame : z'.subscription = z.subscription := (congrArg Handler.subscription hcore :)
    have heq : (s.act a).isSubscribed i (.handler n) = s.isSubscribed i (.handler n) := by
      simp only [isSubscribed, hbefore, hafter, hsame]
    exact ⟨heq.symm.trans, fun hsub _ => heq.trans hsub⟩
  · have hclosed : z'.subscription = .closed := (congrArg Handler.subscription hcore :)
    refine ⟨fun hsub => ?_, fun _ hnot => absurd hgives hnot⟩
    simp [isSubscribed, hafter, hclosed] at hsub

/-- Whoever is taken off is not subscribed any more. -/
theorem isSubscribed_of_unsubscribe {name : String} (hc : s.carriedOut? a = some (t, .unsubscribe name))
    (hn : t.named? .sink name = some n) (hthere : (s.handlers.get? n).isSome) :
    (s.act a).isSubscribed i (.handler n) = false := by
  obtain ⟨ps, us, rfl, hact⟩ := eq_of_carriedOut? hc
  obtain ⟨z, hz⟩ := Option.isSome_iff_exists.1 hthere
  have hclosed : (s.act a).subscriptionOf (.handler n) = some .closed := by
    rw [hact]
    simp [execute, answer?, answerUnsubscribe, hn, hz, subscriptionOf, push, Table.get?_insert]
  simp [isSubscribed, hclosed]

theorem Follows.callsHeard_eq_nil (h : Follows i n l s) (hnot : s.isSubscribed i (.handler n) = false) (bs : List Act) :
    along (callsHeard i (.handler n)) s bs = [] :=
  along_eq_nil (.of_invariant (I := fun s => Follows i n l s ∧ s.isSubscribed i (.handler n) = false)
    (fun _ a hs => ⟨hs.1.act a, Bool.eq_false_iff.2 fun hsub =>
      Bool.eq_false_iff.1 hs.2 ((hs.1.isSubscribed_act a).1 hsub)⟩)
    (fun _ _ hs => if_neg (Bool.eq_false_iff.1 hs.2)) ⟨h, hnot⟩)

/-- A subject has ended if it had before or is asked to end. -/
theorem isOpen_act (h : Sound (· ∈ s.held) s) (hx : s.store.streams.get? i = some (.subject x)) (a : Act) :
    (s.act a).isOpen i = (s.isOpen i && ((s.callsOn i a).find? StreamEvent.isEnd).isNone) := by
  obtain ⟨y, hy, hafter⟩ := becomesSubject_act h hx a
  rw [isOpen_eq hy, isOpen_eq hx, hafter.terminal]
  cases x.terminal <;> simp

/-- What a sink is sent in a run. -/
theorem Follows.along_eventsSent (h : Follows i n l s) (bs : List Act) :
    along (eventsSent (.handler n)) s bs =
      if s.isOpen i then upToEnd (along (callsHeard i (.handler n)) s bs) else [] := by
  induction bs generalizing s with
  | nil => cases s.isOpen i <;> rfl
  | cons a bs ih =>
    obtain ⟨x, hx⟩ := h.subject
    have hrest := ih (h.act a)
    rw [isOpen_act h.sound hx] at hrest
    rw [along, along, h.eventsSent_eq, hrest]
    cases hopen : s.isOpen i with
    | false => simp
    | true =>
      cases hsub : s.isSubscribed i (.handler n) with
      | false =>
        have hnot : (s.act a).isSubscribed i (.handler n) = false :=
          Bool.eq_false_iff.2 fun hs => Bool.eq_false_iff.1 hsub ((h.isSubscribed_act a).1 hs)
        have hnone : s.callsHeard i (.handler n) a = [] := if_neg (Bool.eq_false_iff.1 hsub)
        rw [hnone, (h.act a).callsHeard_eq_nil hnot]
        simp [upToEnd]
      | true =>
        have hall : s.callsHeard i (.handler n) a = s.callsOn i a := if_pos hsub
        rw [hall]
        rcases callsOn_eq i s a with hnone | ⟨e, hone⟩
        · simp [hnone]
        · cases he : e.isEnd <;> simp [hone, he, upToEnd]

/-! ### The work under way -/

/-- Nothing is to be delivered to a sink that is not there yet. -/
def Aimed (s : Session) : Prop := ∀ j e ks, .deliver j e ks ∈ s.pending → ∀ k ∈ ks, k.number < s.store.fresh

/-- Tasks that are quiet whatever sink is new deliver nothing. -/
theorem not_deliver_of_quiet {ts : List Task} (h : ∀ m, Quiet m ts) {ks : List Sink} : .deliver j e ks ∉ ts := by
  intro ht
  have hzero : ks = [.handler ⟨0⟩] := h 0 _ ht
  have hone : ks = [.handler ⟨1⟩] := h 1 _ ht
  rw [hzero] at hone
  cases hone

theorem execute_subscribe {name stream : String} {actions : List Command} {limit : Nat}
    (hi : s.named? .stream stream = some i) :
    let sink : SinkId := ⟨s.store.fresh⟩
    let subscription := s.store.subscription i (.handler sink)
    s.execute (.subscribe name stream actions limit) =
      { session := { s with
          store := ({ s.store with fresh := s.store.fresh + 1 }.subscribe i (.handler sink)).1
          handlers := s.handlers.insert sink { label := name, actions, limit, subscription } }
        reply := .subscribed subscription.isClosed
        tasks := (s.store.greeting i).map (fun e => .deliver i e [.handler sink]) ++ [.adopt name sink] } := by
  have hsame : ({ s.store with fresh := s.store.fresh + 1 }.subscribe i (.handler ⟨s.store.fresh⟩)).2.1 =
      s.store.subscription i (.handler ⟨s.store.fresh⟩) := by
    unfold Store.subscription Store.subscribe
    cases s.store.streams.get? i <;> rfl
  have hgreeting : ({ s.store with fresh := s.store.fresh + 1 }.subscribe i (.handler ⟨s.store.fresh⟩)).2.2 =
      s.store.greeting i := by
    rw [Store.subscribe_eq]
    rfl
  simp only [execute, answer?, answerSubscribe, hi, ← hsame, ← hgreeting]
  rfl

/-- A subject that has ended has nothing to be released. -/
theorem isClosed_subscription (hx : s.store.streams.get? i = some (.subject x)) :
    (s.store.subscription i k).isClosed = x.terminal.isSome := by
  unfold Store.subscription Store.subscribe
  rw [hx]
  cases hterminal : x.terminal <;>
    simp [Stream.subscribe, Subject.subscribe, Subject.isClosed, hterminal, Subscription.isClosed]

theorem fresh_subscribe {name stream : String} {actions : List Command} {limit : Nat}
    (hi : s.named? .stream stream = some i) :
    (s.execute (.subscribe name stream actions limit)).session.store.fresh = s.store.fresh + 1 := by
  rw [execute_subscribe hi, Store.subscribe_eq]

/-- What a command has delivered is delivered to sinks that are there. -/
theorem aimed_execute (h : Sound (· ∈ s.held) s) (hw : Wired s) {c : Command} {ks : List Sink}
    (ht : .deliver j e ks ∈ (s.execute c).tasks) : ∀ k ∈ ks, k.number < (s.execute c).session.store.fresh := by
  obtain ⟨g, hm, -⟩ := reacts_execute h (fun _ _ _ => False) c
  cases htells : c.tells with
  | true =>
    cases hsends : s.announcement? c with
    | none =>
      obtain ⟨j', d, hd⟩ := execute_of_announcement?_none (g := bare _) h htells hsends _ ht
      obtain ⟨-, -, rfl⟩ := Task.deliver.inj hd
      simp
    | some p =>
      obtain ⟨x, hx, htasks, -⟩ := execute_of_announcement? (g := bare _) h hsends
      rw [htasks] at ht
      obtain ⟨-, -, rfl⟩ := Task.deliver.inj (List.mem_singleton.1 ht)
      intro k hk
      obtain ⟨⟨m, k⟩, hmem, rfl⟩ := List.mem_map.1 hk
      have hold : k.number < s.store.fresh := hw.old (by rw [hw.owned (rollOf_of_get? hx) hmem]; rfl)
      exact Nat.lt_of_lt_of_le hold (Moves.fresh_le hm)
  | false =>
    cases hsub : c.subscribes with
    | false => exact absurd ht (not_deliver_of_quiet fun m => quiet_execute_of htells (by simp [hsub]))
    | true =>
      cases c with
      | subscribe name stream actions limit =>
        cases hi : s.named? .stream stream with
        | none => simp [execute, answer?, answerSubscribe, hi] at ht
        | some i =>
          rw [execute_subscribe hi] at ht
          rw [fresh_subscribe hi]
          rcases List.mem_append.1 ht with ht | ht
          · obtain ⟨d, -, hd⟩ := List.mem_map.1 ht
            obtain ⟨-, -, rfl⟩ := Task.deliver.inj hd
            intro k hk
            rw [List.mem_singleton.1 hk]
            exact Nat.lt_succ_self _
          · cases List.mem_singleton.1 ht
      | _ => cases hsub

/-- What remains to be delivered when an act takes up its task was to be delivered before. -/
theorem exists_deliver_of_remaining {ks : List Sink} (ht : .deliver j e ks ∈ s.remaining a) :
    ∃ ks', .deliver j e ks' ∈ s.pending ∧ ∀ k ∈ ks, k ∈ ks' := by
  cases a with
  | command c => exact ⟨ks, ht, fun _ => id⟩
  | step =>
    unfold remaining at ht
    dsimp only at ht
    split at ht
    · cases ht
    next t rest hp =>
      rcases List.mem_append.1 ht with ht | ht
      · cases Task.shortens_of_mem_left ht with
        | @deliver _ _ k' _ =>
          exact ⟨k' :: ks, by rw [hp]; exact List.mem_cons_self .., fun _ => List.mem_cons_of_mem _⟩
      · exact ⟨ks, by rw [hp]; exact List.mem_cons_of_mem _ ht, fun _ => id⟩

theorem Aimed.act (haimed : Aimed s) (h : Sound (· ∈ s.held) s) (hw : Wired s) (a : Act) : Aimed (s.act a) := by
  obtain ⟨g, hm⟩ := moves_act h (fun _ _ _ => False) a
  intro j e ks ht k hk
  rw [pending_act h] at ht
  rcases List.mem_append.1 ht with ht | ht
  · obtain ⟨r, ho, hact, htasks, -⟩ := exists_outcome h a
    rw [← htasks] at ht
    cases ho with
    | @command t c ts hc hts =>
      obtain ⟨ps, us, rfl, -⟩ := eq_of_carriedOut? hc
      rw [hact]
      rcases List.mem_append.1 ht with ht | ht
      · exact aimed_execute (sound_carriedOut? h hc) { hw with } ht k hk
      · obtain ⟨label, reply, hreport⟩ := hts _ ht
        cases hreport
    | tell => exact absurd ht (not_deliver_of_quiet fun m => quiet_tell _ _ _)
    | receive => exact absurd ht (not_deliver_of_quiet fun m => quiet_receive _ _)
    | still => cases ht
  · obtain ⟨ks', ht', hks⟩ := exists_deliver_of_remaining ht
    exact Nat.lt_of_lt_of_le (haimed j e ks' ht' k (hks k hk)) (Moves.fresh_le hm)

theorem aimed_play (as : List Act) : Aimed (initial.play as) := by
  induction as using List.reverseRecOn with
  | nil => exact fun j e ks ht => by cases ht
  | append_singleton as a ih =>
    rw [play_append]
    exact ih.act (sound_initial.play as) (wired_play as).1 a

/-- Nothing that was to be delivered before is for a new sink. -/
theorem Aimed.eventsDue_remaining (h : Aimed s) (hk : s.store.fresh ≤ k.number) (a : Act) :
    (s.remaining a).flatMap (Task.eventsDue k) = [] := by
  refine List.flatMap_eq_nil_iff.2 fun t ht => ?_
  unfold Task.eventsDue
  split
  next j e ks =>
    obtain ⟨ks', ht', hks⟩ := exists_deliver_of_remaining ht
    have hnot : k ∉ ks := fun hmem => Nat.not_lt.2 hk (h j e ks' ht' k (hks k hmem))
    rw [List.count_eq_zero_of_not_mem hnot, List.replicate_zero]
  · rfl

/-! ### A sink subscribes -/

/-- The tasks that an act with a command leads to are those of the command, and a reply to be written down. -/
theorem started_of_carriedOut? {c : Command} (h : Sound (· ∈ s.held) s) (hc : s.carriedOut? a = some (t, c)) :
    ∃ ts, s.started a = (t.execute c).tasks ++ ts ∧ ∀ t' ∈ ts, ∃ label reply, t' = Task.report label reply := by
  obtain ⟨r, ho, -, htasks, -⟩ := exists_outcome h a
  cases ho with
  | @command t' c' ts hc' hts =>
    obtain ⟨rfl, rfl⟩ := Prod.mk.inj (Option.some.inj (hc.symm.trans hc'))
    exact ⟨ts, htasks.symm, hts⟩
  | tell ha hp =>
    subst ha
    rw [carriedOut?_of_notify hp] at hc
    cases hc
  | receive ha hp =>
    subst ha
    rw [carriedOut?_of_deliver hp] at hc
    cases hc
  | still hnone =>
    rw [hnone] at hc
    cases hc

variable {stream : String} {actions : List Command} {limit : Nat}

/-- A new sink is told at once what it is greeted with. -/
theorem eventsDue_of_subscribe (h : Sound (· ∈ s.held) s) (haimed : Aimed s)
    (hc : s.carriedOut? a = some (t, .subscribe l stream actions limit)) (hi : t.named? .stream stream = some i)
    (hx : s.store.streams.get? i = some (.subject x)) :
    (s.act a).eventsDue (.handler ⟨s.store.fresh⟩) = x.greeting := by
  obtain ⟨ts, hstarted, hts⟩ := started_of_carriedOut? h hc
  obtain ⟨ps, us, rfl, -⟩ := eq_of_carriedOut? hc
  have hreports : ts.flatMap (Task.eventsDue (.handler ⟨s.store.fresh⟩)) = [] := by
    refine List.flatMap_eq_nil_iff.2 fun t' ht' => ?_
    obtain ⟨label, reply, rfl⟩ := hts t' ht'
    rfl
  have hgreeting : s.store.greeting i = x.greeting := by simp [Store.greeting, hx, Stream.greeting]
  rw [eventsDue, pending_act h, List.flatMap_append, haimed.eventsDue_remaining (Nat.le_refl _), List.append_nil,
    hstarted, List.flatMap_append, hreports, List.append_nil, execute_subscribe hi, ← hgreeting]
  simp [Task.eventsDue, List.flatMap_append, List.flatMap_map]

/-- A new sink of a subject follows it, and is subscribed to it unless it has ended. -/
theorem follows_of_subscribe (h : Sound (· ∈ s.held) s) (hw : Wired s) (he : Enrolled s)
    (hc : s.carriedOut? a = some (t, .subscribe l stream actions limit)) (hi : t.named? .stream stream = some i)
    (hx : s.store.streams.get? i = some (.subject x)) :
    Follows i ⟨s.store.fresh⟩ l (s.act a) ∧
      (s.act a).isSubscribed i (.handler ⟨s.store.fresh⟩) = x.terminal.isNone := by
  obtain ⟨g, hm⟩ := moves_act h (fun _ _ _ => False) a
  obtain ⟨y, hy, -⟩ := becomesSubject_act h hx a
  obtain ⟨ps, us, rfl, hact⟩ := eq_of_carriedOut? hc
  let sink : SinkId := ⟨s.store.fresh⟩
  let subscription := s.store.subscription i (.handler sink)
  have hhandler : (s.act a).handlers.get? sink = some { label := l, actions, limit, subscription } := by
    rw [hact, execute_subscribe hi]
    exact (Table.get?_insert ..).trans (if_pos rfl)
  have hsubscription : (s.act a).subscriptionOf (.handler sink) = some subscription := by
    rw [subscriptionOf, hhandler, Option.map_some]
  have hiff {j : StreamId} {m : Nat} : subscription = .subject j m ↔ j = i ∧ x.isClosed = false ∧ x.nextToken = m := by
    rw [subscription_iff, rollOf_of_get? hx]
    simp [Roll.of]
  constructor
  · constructor
    case toSettled =>
      refine ⟨h.act a, hw.moves hm h, ?_⟩
      rw [hact]
      exact Nat.lt_of_lt_of_eq (Nat.lt_succ_self _) (fresh_subscribe hi).symm
    case enrolled => exact he.moves hm h hw
    case alone =>
      intro j m hj
      exact (hiff.1 (Option.some.inj (hsubscription.symm.trans hj))).1
    case labelled => exact ⟨_, hhandler, rfl⟩
    case subject => exact ⟨y, hy⟩
  · rw [Bool.eq_iff_iff, isSubscribed_iff]
    simp only [sink, hsubscription, Option.some.injEq, hiff]
    cases hterminal : x.terminal <;> simp [Subject.isClosed, hterminal]

/-! ### Subjects -/

/-- The subject is asked for nothing while the sink has not been told yet all that it was sent. -/
def Waits (i : StreamId) (n : SinkId) (s : Session) (a : Act) : Prop :=
  s.callsOn i a ≠ [] → s.eventsDue (.handler n) = []

instance (i : StreamId) (n : SinkId) (s : Session) (a : Act) : Decidable (Waits i n s a) :=
  inferInstanceAs (Decidable (s.callsOn i a ≠ [] → s.eventsDue (.handler n) = []))

/-- What a sink of the host hears from a subject in a run. -/
structure Hears (i : StreamId) (n : SinkId) (l : String) (greeting : List StreamEvent) (s : Session) (bs : List Act) :
    Prop where
  /-- It is told the greeting and then, in order, what the subject is asked for while the sink is subscribed, up to the
  first event that ends the subject. -/
  told : AtEach (Waits i n) s bs →
    along (eventsTold (.handler n)) s bs ++ (s.play bs).eventsDue (.handler n) =
      greeting ++ upToEnd (along (callsHeard i (.handler n)) s bs)
  /-- It writes down what it is told. -/
  written : AtEach (fun s a => ∀ e, s.eventsTold (.handler n) a = [e] →
    (s.act a).log = s.log ++ [s.eventEntry l e]) s bs
  /-- It is subscribed until the host gives it up. -/
  stays : AtEach (fun s a => s.isSubscribed i (.handler n) = true → ¬s.GivesUp n a →
    (s.act a).isSubscribed i (.handler n) = true) s bs
  /-- When the host takes it off, it is not subscribed any more. -/
  leaves : AtEach (fun s a => ∀ t name, s.carriedOut? a = some (t, .unsubscribe name) → t.named? .sink name = some n →
    (s.act a).isSubscribed i (.handler n) = false) s bs
  /-- Nothing subscribes it again. -/
  gone : AtEach (fun s a => s.isSubscribed i (.handler n) = false → (s.act a).isSubscribed i (.handler n) = false) s bs

theorem Follows.hears (h : Follows i n l s) (hopen : s.isSubscribed i (.handler n) = true → s.isOpen i = true)
    (bs : List Act) : Hears i n l (s.eventsDue (.handler n)) s bs := by
  have hfollows {P : Session → Act → Prop} (hP : ∀ s a, Follows i n l s → P s a) : AtEach P s bs :=
    .of_invariant (fun _ a hs => hs.act a) hP h
  constructor
  case told =>
    intro hwaits
    have hinOrder : AtEach (fun s a => s.eventsSent (.handler n) a ≠ [] → s.eventsDue (.handler n) = []) s bs := by
      refine ((hfollows fun s a hs => hs.eventsSent_eq a).and hwaits).mono fun s a hs hsent => hs.2 fun hnone => hsent ?_
      rw [hs.1, callsHeard, hnone]
      simp
    rw [along_eq (h.stacked bs) hinOrder, h.along_eventsSent]
    cases hsub : s.isSubscribed i (.handler n) with
    | true => rw [hopen hsub, if_pos rfl]
    | false => cases s.isOpen i <;> simp [h.callsHeard_eq_nil hsub, upToEnd]
  case written =>
    refine hfollows fun s a hs e he => ?_
    obtain ⟨z, hz, rfl⟩ := hs.labelled
    exact log_of_eventsTold hz he
  case stays => exact hfollows fun s a hs => (hs.isSubscribed_act a).2
  case leaves =>
    refine hfollows fun s a hs t name hc hn => isSubscribed_of_unsubscribe hc hn ?_
    obtain ⟨z, hz, -⟩ := hs.labelled
    rw [hz]
    rfl
  case gone =>
    exact hfollows fun s a hs hnot =>
      Bool.eq_false_iff.2 fun hsub => Bool.eq_false_iff.1 hnot ((hs.isSubscribed_act a).1 hsub)

/-- The name of a stream may go to another one, which leaves the store as it is. -/
theorem store_setName_stream (s : Session) (name : String) (i : StreamId) : (s.setName name i.ref).store = s.store := by
  unfold setName
  dsimp only
  split
  · rfl
  · unfold letGo
    split <;> rfl

theorem subject_of_makeSubject (h : Sound (· ∈ s.held) s) {name : String} {value? : Option HostValue} {u : Session}
    (hc : s.carriedOut? a = some (t, .makeSubject name value?)) (hx : t.subjectOf? value? = some (u, x)) :
    (s.act a).store.streams.get? ⟨u.store.fresh⟩ = some (.subject x) ∧ x.terminal = none := by
  constructor
  · obtain ⟨ps, us, rfl, hact⟩ := eq_of_carriedOut? hc
    rw [hact]
    simp only [execute, answer?, answerMakeSubject, hx, Option.bind_eq_bind, Option.bind_some, Option.pure_def,
      Option.getD_some, push]
    rw [store_setName_stream]
    exact (Table.get?_insert ..).trans (if_pos rfl)
  · obtain ⟨-, -, -, -, hterminal⟩ := made_subjectOf? (g := bare _) (sound_carriedOut? h hc) hx
    exact hterminal

/-- The host makes a subject, plain or with an initial value to be replayed. At every point of a run, it holds the
latest value that it was asked to send before its end, and the first end that it was asked for; and it counts the sinks
that are subscribed to it, none once it has ended. A sink that subscribes is greeted with the latest value if the subject
replays it, then with the end if there was one. If there was one, the subscription is closed. Otherwise the sink is
subscribed until the host gives it up, and it is told what the subject is asked for meanwhile, each event once and in
order, up to the first end, provided that nobody asks for the next event before it has been told the one before. -/
theorem subject_play (as : List Act) {a : Act} {t u : Session} {name : String} {value? : Option HostValue} {x : Subject}
    (hc : (initial.play as).carriedOut? a = some (t, .makeSubject name value?))
    (hx : t.subjectOf? value? = some (u, x)) (bs : List Act) :
    let i : StreamId := ⟨u.store.fresh⟩
    let s := ((initial.play as).act a).play bs
    let asked := along (callsOn i) ((initial.play as).act a) bs
    let latest := ((upToEnd asked).filterMap StreamEvent.value?).getLast?.or x.latest
    let terminal := asked.find? StreamEvent.isEnd
    (∃ y, s.store.streams.get? i = some (.subject y) ∧ y.latest = latest ∧ y.terminal = terminal ∧
      y.sinks.length = {k | s.isSubscribed i k = true ∧ terminal = none}.ncard) ∧
    ∀ (b : Act) (v : Session) (l stream : String) (actions : List Command) (limit : Nat),
      s.carriedOut? b = some (v, .subscribe l stream actions limit) → v.named? .stream stream = some i →
        let n : SinkId := ⟨s.store.fresh⟩
        let replay := if x.replays then latest.toList.map StreamEvent.next else []
        (v.execute (.subscribe l stream actions limit)).reply = .subscribed terminal.isSome ∧
        (s.act b).isSubscribed i (.handler n) = terminal.isNone ∧
        ∀ cs, Hears i n l (replay ++ terminal.toList) (s.act b) cs := by
  intro i s asked latest terminal
  have hplay : s = initial.play (as ++ a :: bs) := by rw [play_append, play_cons]
  have hsound : Sound (· ∈ s.held) s := hplay ▸ sound_initial.play _
  obtain ⟨hw, he⟩ : Wired s ∧ Enrolled s := hplay ▸ wired_play _
  have haimed : Aimed s := hplay ▸ aimed_play _
  obtain ⟨hmade, hnew⟩ := subject_of_makeSubject (sound_initial.play as) hc hx
  obtain ⟨y, hy, hafter⟩ := becomesSubject_play ((sound_initial.play as).act a) hmade bs
  have hlatest : y.latest = latest := by
    rw [hafter.latest, Subject.isClosed, hnew]
    rfl
  have hterminal : y.terminal = terminal := by
    rw [hafter.terminal, hnew, Option.none_or]
  refine ⟨⟨y, hy, hlatest, hterminal, hterminal ▸ length_sinks hw he hy⟩, ?_⟩
  intro b v l stream actions limit hb hi n replay
  obtain ⟨hfollows, hsubscribed⟩ := follows_of_subscribe hsound hw he hb hi hy
  have hgreeting : y.greeting = replay ++ terminal.toList := by
    rw [Subject.greeting, hafter.replays, hlatest, hterminal]
  have hdue := eventsDue_of_subscribe hsound haimed hb hi hy
  rw [hgreeting] at hdue
  rw [hterminal] at hsubscribed
  have hopen : (s.act b).isOpen i = terminal.isNone := by
    have hnone : s.callsOn i b = [] := by
      rw [callsOn, hb]
      rfl
    rw [isOpen_act hsound hy, hnone, isOpen_eq hy, hterminal]
    simp
  refine ⟨?_, hsubscribed, fun cs => ?_⟩
  · obtain ⟨ps, us, rfl, -⟩ := eq_of_carriedOut? hb
    rw [execute_subscribe hi, ← hterminal]
    exact congrArg Reply.subscribed (isClosed_subscription hy)
  · rw [← hdue]
    exact hfollows.hears (fun hsub => hopen.trans (hsubscribed.symm.trans hsub)) cs

/-- A sink comes to a subject that replays its latest value, which is sent one more value and then the end. -/
theorem subject_play_behavior :
    let bs : List Act := [.command (.next "s" (.int 2)), .step]
    let b : Act := .command (.subscribe "k" "s" [] 0)
    let s := ((initial.act (.command (.makeSubject "s" (some (.int 1))))).play bs).act b
    let cs : List Act := [.step, .step, .step, .command (.next "s" (.int 3)), .step, .step, .command (.complete "s"),
      .step, .step, .command (.next "s" (.int 4)), .step]
    s.isSubscribed ⟨1⟩ (.handler ⟨2⟩) = true ∧ AtEach (Waits ⟨1⟩ ⟨2⟩) s cs ∧
      (along (eventsTold (.handler ⟨2⟩)) s cs).map (·.value?.bind Value.int?) = [some 2, some 3, none] := by
  intro bs b s cs
  let x : Subject := { latest := some (.int 1), replays := true }
  let a : Act := .command (.makeSubject "s" (some (.int 1)))
  have hx : initial.subjectOf? (some (.int 1)) = some (initial, x) := rfl
  have hc : (initial.play []).carriedOut? a = some (initial, .makeSubject "s" (some (.int 1))) := rfl
  have hb : ((initial.act a).play bs).carriedOut? b = some ((initial.act a).play bs, .subscribe "k" "s" [] 0) := rfl
  have hi : ((initial.act a).play bs).named? .stream "s" = some ⟨initial.store.fresh⟩ := by decide +kernel
  have hwaits : AtEach (Waits ⟨1⟩ ⟨2⟩) s cs := by decide +kernel
  have hasked : along (callsOn ⟨initial.store.fresh⟩) ((initial.play []).act a) bs = [.next (.int 2)] := rfl
  have hheard : (upToEnd (along (callsHeard ⟨1⟩ (.handler ⟨2⟩)) s cs)).map (·.value?.bind Value.int?) =
      [some 3, none] := by decide +kernel
  have hdue : (s.play cs).eventsDue (.handler ⟨2⟩) = [] := List.isEmpty_iff.1 (by decide +kernel)
  obtain ⟨-, hsinks⟩ := subject_play [] hc hx bs
  rw [hasked] at hsinks
  obtain ⟨-, hsubscribed, hhears⟩ := hsinks b _ "k" "s" [] 0 hb hi
  have htold : along (eventsTold (.handler ⟨2⟩)) s cs ++ (s.play cs).eventsDue (.handler ⟨2⟩) =
      [.next (.int 2)] ++ upToEnd (along (callsHeard ⟨1⟩ (.handler ⟨2⟩)) s cs) := (hhears cs).told hwaits
  rw [hdue, List.append_nil] at htold
  refine ⟨hsubscribed, hwaits, ?_⟩
  rw [htold, List.map_append, hheard]
  rfl

end Session

end DataBinding
