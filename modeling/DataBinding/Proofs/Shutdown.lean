import DataBinding.Proofs.ChangePairs
import DataBinding.Proofs.Unfailing

/-!
# After a system is shut down

A shutdown destroys the observers of a system, but the bindings of the system stay bound, and they stay registered with
the properties that they read. An observer that the system opened before is never told of an event again: it is
destroyed, or its stream is out of reach for good (`Deaf`). So what a binding is told of by observers after the
shutdown was under way already, or comes from an observer that the system opened since; and to listen to that one, the
binding must have been evaluated since, when a command bound it or when it was told of the change of a property
(`prompted_of_shutdown`).
-/

namespace DataBinding

namespace Session

variable {g : Ghost} {s s' t : Session} {a c : Act} {as bs cs ds : List Act} {b : BindingId} {o p : ObserverId}
  {i j : StreamId} {x z : Binding} {e : Effect} {E : Effect → Prop} {P : StreamId → ObserverId → Prop}

/-! ### Who listens to an observer -/

/-- The binding is registered with the observer. -/
def ListensTo (s : Session) (b : BindingId) (o : ObserverId) : Prop :=
  ∃ y n, s.store.observers.get? o = some y ∧ (n, .binding b) ∈ y.listeners.entries

theorem listensTo_of_mem_audience (h : .binding b ∈ (s.store.listeners (.observer o)).audience) : s.ListensTo b o := by
  obtain ⟨⟨n, l⟩, hn, rfl⟩ := List.mem_map.1 h
  cases hy : s.store.observers.get? o with
  | none => simp [Store.listeners, hy] at hn
  | some y =>
    simp only [Store.listeners, hy] at hn
    exact ⟨y, n, hy, hn⟩

theorem ListensTo.of_setObserver {y : Observer}
    (h : ({ s with store := s.store.setObserver p y } : Session).ListensTo b o) :
    s.ListensTo b o ∨ p = o ∧ ∃ n, (n, .binding b) ∈ y.listeners.entries := by
  obtain ⟨w, n, hw, hn⟩ := h
  simp only [Store.setObserver, Table.get?_insert] at hw
  split at hw
  next hp =>
    obtain rfl := Option.some.inj hw
    exact .inr ⟨hp, n, hn⟩
  · exact .inl ⟨w, n, hw, hn⟩

theorem ListensTo.of_close {d : Subscription} (h : (s.close d).ListensTo b o) : s.ListensTo b o := by
  obtain ⟨y, n, hy, hn⟩ := h
  exact ⟨y, n, by rwa [close_observers] at hy, hn⟩

/-- A binding comes to listen to an observer of its system, and by no other move than its own. -/
theorem Move.listensTo {p q : Ghost × Session} (hm : Move e p q) (h : q.2.ListensTo b o) :
    p.2.ListensTo b o ∨
      e = .hears b ∧ ∃ z i, p.2.bindings.get? b = some z ∧ p.2.systems.entryIn z.system i = some o := by
  cases hm with
  | @opening g s y i =>
    rw [Store.openObserver_eq] at h
    obtain ⟨w, n, hw, hn⟩ := h
    simp only [Table.get?_insert] at hw
    split at hw
    · obtain rfl := Option.some.inj hw
      simp [Store.listeners_opened] at hn
    · exact .inl ⟨w, n, hw, hn⟩
  | @destroying g s p y hy =>
    have hset := ListensTo.of_close h
    rcases hset.of_setObserver with h | ⟨rfl, n, hn⟩
    · exact .inl h
    · exact .inl ⟨y, n, hy, hn⟩
  | @erasing g s p y hy =>
    obtain ⟨w, n, hw, hn⟩ := h.of_close
    simp only [Table.get?_erase] at hw
    split at hw
    · cases hw
    · exact .inl ⟨w, n, hw, hn⟩
  | @listening g s p y ls hy hl =>
    rcases h.of_setObserver with h | ⟨rfl, n, hn⟩
    · exact .inl h
    · exact .inl ⟨y, n, hy, hl n b hn⟩
  | @hearing g s p y c w i hy hc hi =>
    rcases h.of_setObserver with h | ⟨rfl, n, hn⟩
    · exact .inl h
    · rcases List.mem_append.1 hn with hn | hn
      · exact .inl ⟨y, n, hy, hn⟩
      · obtain ⟨-, hb⟩ := Prod.mk.inj (List.mem_singleton.1 hn)
        obtain rfl := Listener.binding.inj hb
        exact .inr ⟨rfl, w, i, hc, hi⟩
  | @receiving g s p y d hy =>
    rcases h.of_setObserver with h | ⟨rfl, n, hn⟩
    · exact .inl h
    exact .inl ⟨y, n, hy, y.receive_listeners d ▸ hn⟩
  | releasing =>
    have hbefore := h.of_close
    exact .inl hbefore
  | subscribing =>
    rw [Store.subscribe_eq] at h
    exact .inl h
  | _ => exact .inl h

theorem Moves.listensTo {p q : Ghost × Session} (hm : Moves E p q) (h : q.2.ListensTo b o) :
    p.2.ListensTo b o ∨ E (.hears b) := by
  induction hm with
  | refl => exact .inl h
  | tail _ hlast ih =>
    obtain ⟨f, hf, hlast⟩ := hlast
    rcases hlast.listensTo h with h | ⟨rfl, -⟩
    · exact ih h
    · exact .inr hf

/-- Bindings listen to observers that their own systems opened. -/
structure Heard (g : Ghost) (s : Session) : Prop where
  old {b : BindingId} : (s.bindings.get? b).isSome → b.number < s.store.fresh
  listed {b : BindingId} {o : ObserverId} : s.ListensTo b o → b.number < s.store.fresh
  opened {b : BindingId} {z : Binding} {o : ObserverId} :
    s.bindings.get? b = some z → s.ListensTo b o → ∃ i, g.opened z.system i o

theorem Heard.move {p q : Ghost × Session} (hm : Move e p q) (hk : Kept p.1 p.2) (h : Heard p.1 p.2) :
    Heard q.1 q.2 := by
  have hf := hm.fresh_le
  have hlisted : ∀ {b o}, q.2.ListensTo b o → b.number < p.2.store.fresh := by
    intro b o hb
    rcases hm.listensTo hb with hb | ⟨-, z, i, hz, -⟩
    · exact h.listed hb
    · exact h.old (by rw [hz]; rfl)
  constructor
  case old =>
    intro b hb
    obtain ⟨x, hx⟩ := Option.isSome_iff_exists.1 hb
    rcases hm.becomes hx with ⟨z, hz, -⟩ | ⟨rfl, hfresh⟩
    · exact Nat.lt_of_lt_of_le (h.old (by rw [hz]; rfl)) hf
    · rw [hfresh]
      exact Nat.lt_succ_self _
  case listed => exact fun hb => Nat.lt_of_lt_of_le (hlisted hb) hf
  case opened =>
    intro b x o hx hb
    -- the binding was there before, for a new one listens to nothing
    have hold : ∃ z, p.2.bindings.get? b = some z ∧ z.Becomes x := by
      rcases hm.becomes hx with hz | ⟨rfl, -⟩
      · exact hz
      · exact absurd (hlisted hb) (Nat.lt_irrefl _)
    obtain ⟨z, hz, hbecomes⟩ := hold
    have hopened : ∃ i, p.1.opened z.system i o := by
      rcases hm.listensTo hb with hb | ⟨-, w, i, hw, hi⟩
      · exact h.opened hz hb
      · obtain rfl := Option.some.inj (hz.symm.trans hw)
        exact ⟨i, hk.entered hi⟩
    obtain ⟨i, hi⟩ := hopened
    exact ⟨i, hbecomes.system ▸ (Moves.of_move (E := fun _ => True) trivial hm).opened_mono hi⟩

/-! ### Whom deliveries go to -/

/-- If the observer is live, it is subscribed to the subject. -/
structure Rides (s : Session) (j : StreamId) (o : ObserverId) : Prop where
  old : o.number < s.store.fresh
  subscribed {d : Subscription} : s.subscriptionOf (.observer o) = some d → ∃ n, d = .subject j n

theorem Rides.rewires (hr : Rewires s s') (hf : s.store.fresh ≤ s'.store.fresh) (h : Rides s j o) : Rides s' j o := by
  refine ⟨Nat.lt_of_lt_of_le h.old hf, fun {d} hd => ?_⟩
  cases hr with
  | same hs | ended hs | made _ _ hs => exact h.subscribed (hs ▸ hd)
  | left hk hc hs =>
    rw [hs] at hd
    split at hd
    next hko =>
      obtain ⟨-, n, hn⟩ := hc d hd
      rw [hko] at hn
      cases hn
    · exact h.subscribed hd
  | joined hk hf' hs =>
    rw [hs, if_neg] at hd
    · exact h.subscribed hd
    · rintro rfl
      exact Nat.lt_irrefl _ (Nat.lt_of_lt_of_eq h.old hk.symm)

theorem Rides.moves {p q : Ghost × Session} (hm : Moves E p q) (hw : Wired p.2) (hsound : Sound p.1.hand p.2)
    (h : Rides p.2 j o) : Rides q.2 j o := by
  induction hm with
  | refl => exact h
  | tail hm hlast ih =>
    obtain ⟨f, -, hlast⟩ := hlast
    exact ih.rewires (hlast.rewires (hw.moves hm hsound).released) hlast.fresh_le

/-- What is under way to observers comes from the subjects that they are subscribed to. -/
def Addressed (s : Session) : Prop :=
  ∀ ⦃j d ks o⦄, Task.deliver j d ks ∈ s.pending → .observer o ∈ ks → Rides s j o

theorem mem_deliver_of_quiet {n : Nat} {ts : List Task} (h : Quiet n ts) {d : StreamEvent} {ks : List Sink}
    (ht : .deliver j d ks ∈ ts) : .observer o ∉ ks := by
  obtain rfl : ks = [.handler ⟨n⟩] := h _ ht
  simp

/-- Acts lead to deliveries to those who are on the roll. -/
theorem onRoll_of_started (hsound : Sound (· ∈ s.held) s) {d : StreamEvent} {ks : List Sink}
    (ht : .deliver j d ks ∈ s.started a) (ho : .observer o ∈ ks) :
    ∃ y n, s.rollOf j = some y ∧ (n, .observer o) ∈ y.sinks := by
  obtain ⟨r, hr, -, htasks, -⟩ := exists_outcome hsound a
  rw [← htasks] at ht
  cases hr with
  | @command t c ts hc hts =>
    rcases List.mem_append.1 ht with ht | ht
    · obtain ⟨ps, -, rfl, -⟩ := eq_of_carriedOut? hc
      have hs := sound_carriedOut? hsound hc
      cases hannounced : ({ s with pending := ps } : Session).announcement? c with
      | some w =>
        obtain ⟨i, f⟩ := w
        obtain ⟨y, hy, hdeliver, -⟩ := execute_of_announcement? (g := bare _) hs hannounced
        rw [hdeliver] at ht
        obtain ⟨rfl, rfl, rfl⟩ := Task.deliver.inj (List.mem_singleton.1 ht)
        obtain ⟨⟨n, k⟩, hn, rfl⟩ := List.mem_map.1 ho
        exact ⟨_, n, rollOf_of_get? hy, hn⟩
      | none =>
        cases hc' : c.tells with
        | true =>
          obtain ⟨i, f, hnil⟩ := execute_of_announcement?_none (g := bare _) hs hc' hannounced _ ht
          obtain ⟨-, -, rfl⟩ := Task.deliver.inj hnil
          cases ho
        | false => exact absurd ho (mem_deliver_of_quiet (quiet_execute hc') ht)
    · obtain ⟨label, reply, hreport⟩ := hts _ ht
      cases hreport
  | tell => exact absurd ho (mem_deliver_of_quiet (quiet_tell (n := 0) _ _ _) ht)
  | receive => exact absurd ho (mem_deliver_of_quiet (quiet_receive (n := 0) _ _) ht)
  | still => cases ht

/-- A task that remains was under way before, or is what is left of one that was. -/
theorem mem_remaining {u : Task} (hu : u ∈ s.remaining a) : u ∈ s.pending ∨ ∃ v ∈ s.pending, u ∈ v.left := by
  cases a with
  | command => exact .inl hu
  | step =>
    unfold remaining at hu
    dsimp only at hu
    split at hu
    · cases hu
    next v rest hp =>
      rw [hp]
      rcases List.mem_append.1 hu with hu | hu
      · exact .inr ⟨v, List.mem_cons_self, hu⟩
      · exact .inl (List.mem_cons_of_mem _ hu)

theorem deliver_of_remaining {d : StreamEvent} {ks : List Sink} (ht : .deliver j d ks ∈ s.remaining a) :
    ∃ ks', .deliver j d ks' ∈ s.pending ∧ ∀ k ∈ ks, k ∈ ks' := by
  rcases mem_remaining ht with ht | ⟨v, hv, ht⟩
  · exact ⟨ks, ht, fun _ => id⟩
  · cases Task.shortens_of_mem_left ht with
    | deliver => exact ⟨_, hv, fun _ => List.mem_cons_of_mem _⟩

theorem notify_of_remaining {w : Source} {new previous : Value} {ls : List Listener}
    (ht : .notify w new previous ls ∈ s.remaining a) :
    ∃ ls', .notify w new previous ls' ∈ s.pending ∧ ∀ l ∈ ls, l ∈ ls' := by
  rcases mem_remaining ht with ht | ⟨v, hv, ht⟩
  · exact ⟨ls, ht, fun _ => id⟩
  · cases Task.shortens_of_mem_left ht with
    | notify => exact ⟨_, hv, fun _ => List.mem_cons_of_mem _⟩

theorem Addressed.act (hsound : Sound (· ∈ s.held) s) (hw : Wired s) (h : Addressed s) (a : Act) :
    Addressed (s.act a) := by
  obtain ⟨g, hm⟩ := moves_act hsound (fun _ _ _ => False) a
  intro j d ks o ht ho
  refine Rides.moves hm hw hsound ?_
  rw [pending_act hsound] at ht
  rcases List.mem_append.1 ht with ht | ht
  · obtain ⟨y, n, hy, hn⟩ := onRoll_of_started hsound ht ho
    have howned := hw.owned hy hn
    refine ⟨hw.old (k := .observer o) (by rw [howned]; rfl), fun {d} hd => ⟨n, ?_⟩⟩
    exact Option.some.inj (hd.symm.trans howned)
  · obtain ⟨ks', ht', hks⟩ := deliver_of_remaining ht
    exact h ht' (hks _ ho)

theorem addressed_play (as : List Act) : Addressed (initial.play as) := by
  induction as using List.reverseRecOn with
  | nil => intro j d ks o ht; cases ht
  | append_singleton as a ih =>
    obtain ⟨opened, hkept, -⟩ := exists_kept as
    rw [play_append]
    exact ih.act (sound_initial.play as) hkept.wired a

/-! ### Observers that tell nobody any more -/

/-- Streams that are out of hand stay so. -/
theorem Move.hand_stream {p q : Ghost × Session} (hm : Move e p q) (hsound : Sound p.1.hand p.2)
    (hi : i.number < p.2.store.fresh) (h : q.1.hand (.stream i)) : p.1.hand (.stream i) := by
  cases hm with
  | narrowing => exact hsound.held _ h
  | newStream =>
    rcases h with h | h
    · exact h
    · obtain rfl := Shared.stream.inj h
      exact absurd hi (Nat.lt_irrefl _)
  | newObject => exact h.resolve_right nofun
  | _ => exact h

theorem Moves.hand_stream {p q : Ghost × Session} (hm : Moves E p q) (hsound : Sound p.1.hand p.2)
    (hi : i.number < p.2.store.fresh) (h : q.1.hand (.stream i)) : p.1.hand (.stream i) := by
  induction hm with
  | refl => exact h
  | tail hm hlast ih =>
    obtain ⟨f, -, hlast⟩ := hlast
    exact ih (hlast.hand_stream (hsound.moves hm) (Nat.lt_of_lt_of_le hi (Moves.fresh_le hm)) h)

theorem Moves.isLive {p q : Ghost × Session} (hm : Moves E p q) (ho : o.number < p.2.store.fresh)
    (h : q.2.store.isLive o = true) : p.2.store.isLive o = true := by
  induction hm with
  | refl => exact h
  | tail hm hlast ih =>
    obtain ⟨f, -, hlast⟩ := hlast
    refine ih ((hlast.isLive h).resolve_right ?_)
    rintro ⟨rfl, -⟩
    exact absurd (Nat.lt_of_lt_of_le ho (Moves.fresh_le hm)) (Nat.lt_irrefl _)

/-- The observer is gone, or its stream is. -/
structure Deaf (s : Session) (i : StreamId) (o : ObserverId) : Prop where
  streamOld : i.number < s.store.fresh
  observerOld : o.number < s.store.fresh
  placed : Placed s i o
  gone : s.store.isLive o = true → .stream i ∉ s.held

theorem Deaf.act (hsound : Sound (· ∈ s.held) s) (hw : Wired s) (h : Deaf s i o) (a : Act) : Deaf (s.act a) i o := by
  obtain ⟨g, hm⟩ := moves_act hsound (fun _ _ _ => False) a
  have hf := Moves.fresh_le hm
  refine ⟨Nat.lt_of_lt_of_le h.streamOld hf, Nat.lt_of_lt_of_le h.observerOld hf,
    h.placed.moves hm hsound hw h.streamOld h.observerOld, fun hlive hheld => ?_⟩
  have hhand := Moves.hand_stream hm hsound h.streamOld ((hsound.moves hm).held _ hheld)
  exact h.gone (Moves.isLive hm h.observerOld hlive) hhand

theorem mum_write {w : Source} (s : Session) (p : ObjectId) (n : String) (v : Value) (hw : w ≠ .property p n) :
    Mum w (s.write p n v).tasks := by
  unfold write
  dsimp only
  split
  · intro t ht
    obtain rfl := List.mem_singleton.1 ht
    exact if_neg (Ne.symm hw)
  · simp [Mum]

theorem Concludes.mum {r : Reaction} (hr : Concludes E g s r) : Mum (.observer o) r.tasks := by
  obtain ⟨g', t, q, rs, -, hq, rfl⟩ := hr
  intro u hu
  rcases List.mem_append.1 hu with hu | hu
  · cases hq with
    | still => cases hu
    | @write p n v => exact mum_write t p n v (by simp) u hu
  · exact mum_keep rs u hu

/-- Who is told of a change tells of no change of an observer. -/
theorem mum_tell (hsound : Sound (· ∈ s.held) s) (new previous : Value) (l : Listener) :
    Mum (.observer o) (s.tell new previous l).tasks := by
  cases l with
  | binding b => exact ((concludes_refresh (g := s.bare) hsound b).keep b.ref).mum
  | recorder n =>
    simp only [tell]
    split
    · simp [Mum]
    · split <;> simp [Mum, Task.changes]

/-- An observer that notifies of a value is active, and tells all its listeners. -/
theorem notify_of_receive {d : StreamEvent} {k : Sink} {new previous : Value} {ls : List Listener}
    (ht : .notify (.observer o) new previous ls ∈ (s.receive d k).tasks) :
    k = .observer o ∧ (∃ y, s.store.observers.get? o = some y ∧ y.isActive = true) ∧
      ls = ((s.receive d k).session.store.listeners (.observer o)).audience := by
  cases k with
  | handler n =>
    simp only [receive] at ht
    split at ht
    · cases ht
    · split at ht <;> simp at ht
  | observer p =>
    cases hy : s.store.observers.get? p with
    | none => simp [receive, hy] at ht
    | some y =>
      cases hchange : (y.receive d).2 with
      | none => simp [receive, hy, hchange] at ht
      | some change =>
        obtain ⟨new', previous'⟩ := change
        simp only [receive, hy, hchange] at ht ⊢
        rcases List.mem_append.1 ht with ht | ht
        · obtain ⟨hsource, rfl, rfl, rfl⟩ := Task.notify.inj (List.mem_singleton.1 ht)
          obtain rfl := Source.observer.inj hsource
          obtain ⟨hactive, -⟩ := Observer.receive_eq_some hchange
          exact ⟨rfl, ⟨y, hy, hactive⟩, rfl⟩
        · cases List.mem_singleton.1 ht

/-- Observers notify of values that they are told, and of nothing else. -/
theorem notify_started (hsound : Sound (· ∈ s.held) s) {new previous : Value} {ls : List Listener}
    (ht : .notify (.observer o) new previous ls ∈ s.started a) :
    (∃ y, s.store.observers.get? o = some y ∧ y.isActive = true) ∧
      ls = ((s.act a).store.listeners (.observer o)).audience ∧
      ∃ j d more rest, s.pending = .deliver j d (.observer o :: more) :: rest := by
  have hloud : ∀ {ts : List Task}, .notify (.observer o) new previous ls ∈ ts → ¬Mum (.observer o) ts := by
    intro ts hmem hmum
    have := hmum _ hmem
    simp [Task.changes] at this
  obtain ⟨r, hr, hact, htasks, -⟩ := exists_outcome hsound a
  rw [← htasks] at ht
  cases hr with
  | @command t c ts hc hts =>
    have hs := sound_carriedOut? hsound hc
    rcases List.mem_append.1 ht with ht | ht
    · cases hw : c.writes with
      | true => exact absurd (concludes_execute (g := t.bare) hs (fun _ => isAlive_iff.2) hw).mum (hloud ht)
      | false => exact absurd (mum_execute hs hw (by simp)) (hloud ht)
    · obtain ⟨label, reply, hreport⟩ := hts _ ht
      cases hreport
  | @tell w new' previous' l ls' rest ha hp hl =>
    have hs : Sound (bare _).hand _ := hsound.take hp [.notify w new' previous' ls'] (by simp [sharedInTask])
    exact absurd (mum_tell hs new' previous' l) (hloud ht)
  | @receive j d k ks rest ha hp =>
    obtain ⟨rfl, hactive, rfl⟩ := notify_of_receive ht
    exact ⟨hactive, by rw [hact]; rfl, j, d, ks, rest, hp⟩
  | still => cases ht

/-- An observer that is gone or has lost its stream notifies nobody. -/
theorem Deaf.not_started (h : Deaf s i o) (hsound : Sound (· ∈ s.held) s) (haddressed : Addressed s)
    {new previous : Value} {ls : List Listener} : .notify (.observer o) new previous ls ∉ s.started a := by
  intro ht
  obtain ⟨⟨y, hy, hactive⟩, -, j, d, more, rest, hp⟩ := notify_started hsound ht
  have hlive := Store.isLive_iff.2 ⟨y, hy, Observer.isDestroyed_of_isActive hactive⟩
  have hpending : .deliver j d (.observer o :: more) ∈ s.pending := by simp [hp]
  have hrides : Rides s j o := haddressed hpending List.mem_cons_self
  obtain ⟨c, hc⟩ := Option.isSome_iff_exists.1 (isSome_subscriptionOf.trans hlive)
  obtain ⟨n, rfl⟩ := hrides.subscribed hc
  obtain rfl := h.placed.only hc
  refine h.gone hlive ?_
  exact hsound.outside.pending hpending _ List.mem_cons_self

/-! ### Runs after a shutdown -/

/-- Some act of the run has the binding evaluated. -/
def Turned (s : Session) (bs : List Act) (b : BindingId) : Prop :=
  ∃ cs c ds, bs = cs ++ c :: ds ∧ (s.play cs).ActAllows c (.hears b)

theorem Turned.append (h : Turned s bs b) (ds : List Act) : Turned s (bs ++ ds) b := by
  obtain ⟨cs, c, es, rfl, hc⟩ := h
  exact ⟨cs, c, es ++ ds, by simp, hc⟩

/-- A binding that listens to an observer did so before the run or was evaluated in it. -/
theorem listensTo_play (hsound : Sound (· ∈ s.held) s) (h : (s.play bs).ListensTo b o) :
    s.ListensTo b o ∨ Turned s bs b := by
  induction bs using List.reverseRecOn with
  | nil => exact .inl h
  | append_singleton bs a ih =>
    rw [play_append] at h
    obtain ⟨g, hm⟩ := moves_act (hsound.play bs) (fun _ _ _ => False) a
    rcases Moves.listensTo hm h with h | h
    · exact (ih h).imp_right fun hturned => hturned.append [a]
    · exact .inr ⟨bs, a, [], by simp, h⟩

/-- All observers of one kind are deaf. -/
structure Silenced (P : StreamId → ObserverId → Prop) (s : Session) : Prop where
  sound : Sound (· ∈ s.held) s
  wired : Wired s
  addressed : Addressed s
  deaf {i : StreamId} {o : ObserverId} : P i o → Deaf s i o

theorem Silenced.act (h : Silenced P s) (a : Act) : Silenced P (s.act a) := by
  obtain ⟨g, hm⟩ := moves_act h.sound (fun _ _ _ => False) a
  exact ⟨h.sound.act a, h.wired.moves hm h.sound, h.addressed.act h.sound h.wired a,
    fun ho => (h.deaf ho).act h.sound h.wired a⟩

theorem Silenced.play (h : Silenced P s) (bs : List Act) : Silenced P (s.play bs) := by
  induction bs generalizing s with
  | nil => exact h
  | cons a bs ih => exact ih (h.act a)

/-- The observer that is the next to tell a binding of a change, and the binding. -/
def teller? (s : Session) : Option (ObserverId × BindingId) :=
  match s.pending with
  | .notify (.observer o) _ _ (.binding b :: _) :: _ => some (o, b)
  | _ => none

theorem pending_of_teller? (h : s.teller? = some (o, b)) :
    ∃ new previous ls, .notify (.observer o) new previous ls ∈ s.pending ∧ .binding b ∈ ls := by
  unfold teller? at h
  split at h
  next new previous _ ls rest hp =>
    obtain ⟨rfl, rfl⟩ := Prod.mk.inj (Option.some.inj h)
    exact ⟨new, previous, .binding _ :: ls, by simp [hp], List.mem_cons_self⟩
  · cases h

/-- An observer is about to tell the binding of a change. -/
def UnderWay (s : Session) (b : BindingId) : Prop :=
  ∃ o new previous ls, .notify (.observer o) new previous ls ∈ s.pending ∧ .binding b ∈ ls

/-- What observers tell a binding was under way before, or does not come from those that are deaf. -/
theorem Silenced.notify (h : Silenced P s) {new previous : Value} {ls : List Listener}
    (ht : .notify (.observer o) new previous ls ∈ (s.play bs).pending) (hb : .binding b ∈ ls) :
    UnderWay s b ∨ (∀ i, ¬P i o) ∧ (s.ListensTo b o ∨ Turned s bs b) := by
  induction bs using List.reverseRecOn generalizing ls with
  | nil => exact .inl ⟨o, new, previous, ls, ht, hb⟩
  | append_singleton bs a ih =>
    rw [play_append] at ht
    have hplay := h.play bs
    rw [play_cons, play_nil, pending_act hplay.sound] at ht
    rcases List.mem_append.1 ht with ht | ht
    · right
      refine ⟨fun i hi => (hplay.deaf hi).not_started hplay.sound hplay.addressed ht, ?_⟩
      obtain ⟨-, rfl, -⟩ := notify_started hplay.sound ht
      have hlistens : (s.play (bs ++ [a])).ListensTo b o := by
        rw [play_append]
        exact listensTo_of_mem_audience hb
      exact listensTo_play h.sound hlistens
    · obtain ⟨ls', ht', hls⟩ := notify_of_remaining ht
      refine (ih ht' (hls _ hb)).imp_right ?_
      rintro ⟨hnot, hlistens⟩
      exact ⟨hnot, hlistens.imp_right fun hturned => hturned.append [a]⟩

/-- A command binds the binding, or it is told of a change that is none of an observer. -/
inductive Prompts (s : Session) (a : Act) (b : BindingId) : Prop
  | bound {t : Session} {c : Command} (hc : s.carriedOut? a = some (t, c)) (hb : t.bindingOf? c = some b)
  | told {w : Source} {new previous : Value} {ls : List Listener} {rest : List Task} (ha : a = .step)
      (hp : s.pending = .notify w new previous (.binding b :: ls) :: rest) (hw : ∀ o, w ≠ .observer o)

/-- Of the systems, a shutdown changes only the registry of the one that is shut down, which it empties. -/
theorem systems_shutdown {t : Session} {name : String} {y : SystemId} {z : System}
    (hc : s.carriedOut? a = some (t, .shutdown name)) (hy : t.system? name = some (y, z)) :
    (s.act a).systems = t.systems.insert y { z with registry := { z.registry with entries := ∅ } } := by
  obtain ⟨ps, us, -, hact⟩ := eq_of_carriedOut? hc
  have hexecute : (t.execute (.shutdown name)).session = t.shutdown y z := by
    simp [execute, answer?, answerShutdown, hy]
  rw [hact, hexecute]
  exact systems_destroyAll ..

/-- A shutdown leaves the registry of the system empty. -/
theorem entryIn_shutdown {t : Session} {name : String} {y : SystemId} {z : System}
    (hc : s.carriedOut? a = some (t, .shutdown name)) (hy : t.system? name = some (y, z)) (i : StreamId) :
    (s.act a).systems.entryIn y i = none := by
  rw [systems_shutdown hc hy]
  simp [Table.entryIn, Table.get?_insert, Table.get?_empty]

/-- After a shutdown all observers of the system are deaf. -/
theorem exists_silenced {t : Session} {name : String} {y : SystemId} {z : System}
    (hc : (initial.play as).carriedOut? a = some (t, .shutdown name)) (hy : t.system? name = some (y, z)) :
    ∃ opened, Silenced (opened y) (initial.play (as ++ [a])) ∧
      Heard ((initial.play (as ++ [a])).atRest opened) (initial.play (as ++ [a])) ∧
      ∀ i o, Opened (as ++ [a]) y i o → opened y i o := by
  have hempty : Heard (bare {}) {} := by
    constructor
    case old => exact fun hb => by cases hb
    case listed =>
      rintro b o ⟨w, n, hw, -⟩
      cases hw
    case opened => exact fun hb => by cases hb
  obtain ⟨opened, hkept, hheard, hopened⟩ := exists_kept_and Heard.move hempty (as ++ [a])
  refine ⟨opened, ⟨sound_initial.play _, hkept.wired, addressed_play _, fun {i o} ho => ?_⟩, hheard, hopened y⟩
  obtain ⟨hi, hold⟩ := hkept.old ho
  refine ⟨hi, hold, hkept.placed ho, fun hlive hheld => ?_⟩
  have hentry := hkept.current ho hlive hheld
  rw [play_append] at hentry
  exact nomatch (entryIn_shutdown hc hy i).symm.trans hentry

/-- An act has a binding come to listen that something else than an observer prompts, or that an observer tells. -/
theorem prompts_or_told (h : s.ActAllows a (.hears b)) :
    Prompts s a b ∨ ∃ o new previous ls, .notify (.observer o) new previous ls ∈ s.pending ∧ .binding b ∈ ls := by
  cases h with
  | calm h => rcases h with (h | h) | h <;> cases h
  | bound hc hb => exact .inl (.bound hc hb)
  | @told w new previous _ ls rest ha hp =>
    cases w with
    | observer o => exact .inr ⟨o, new, previous, .binding b :: ls, by simp [hp], List.mem_cons_self⟩
    | property | collection => exact .inl (.told ha hp (by simp))

/-- The first that an observer tells a binding which did not listen before is prompted by something else. -/
theorem Silenced.prompted (h : Silenced P s) (hlistens : ∀ o, s.ListensTo b o → ∃ i, P i o) {new previous : Value}
    {ls : List Listener} (ht : .notify (.observer o) new previous ls ∈ (s.play bs).pending) (hb : .binding b ∈ ls) :
    UnderWay s b ∨ (∀ i, ¬P i o) ∧ ∃ cs c ds, bs = cs ++ c :: ds ∧ Prompts (s.play cs) c b := by
  -- each turn of the binding that an observer gives it has an earlier one
  induction hn : bs.length using Nat.strong_induction_on generalizing bs o new previous ls with
  | _ n ih =>
    subst hn
    rcases h.notify ht hb with hunder | ⟨hnot, hlistening | ⟨cs, c, ds, rfl, hturn⟩⟩
    · exact .inl hunder
    · obtain ⟨i, hi⟩ := hlistens o hlistening
      exact absurd hi (hnot i)
    · rcases prompts_or_told hturn with hprompts | ⟨p, new', previous', ls', ht', hb'⟩
      · exact .inr ⟨hnot, cs, c, ds, rfl, hprompts⟩
      · refine (ih cs.length (by simp) ht' hb' rfl).imp_right ?_
        rintro ⟨-, cs', c', ds', rfl, hprompts⟩
        exact ⟨hnot, cs', c', ds' ++ c :: ds, by simp, hprompts⟩

/-- After a system was shut down, no observer tells a binding of the system of a change, unless one was about to, or
the observer was opened since and something else had the binding evaluated. -/
theorem prompted_of_shutdown (as bs : List Act) (a : Act) {t : Session} {name : String} {y : SystemId} {z : System}
    {b : BindingId} {x : Binding} {o : ObserverId}
    (hc : (initial.play as).carriedOut? a = some (t, .shutdown name)) (hy : t.system? name = some (y, z))
    (hx : (initial.play (as ++ a :: bs)).bindings.get? b = some x) (hsystem : x.system = y)
    (ho : (initial.play (as ++ a :: bs)).teller? = some (o, b)) :
    UnderWay (initial.play (as ++ [a])) b ∨
      (∀ i, ¬Opened (as ++ [a]) y i o) ∧
        ∃ cs c ds, bs = cs ++ c :: ds ∧ Prompts (initial.play (as ++ a :: cs)) c b := by
  obtain ⟨opened, hsilenced, hheard, hopened⟩ := exists_silenced hc hy
  have hplay : ∀ cs, initial.play (as ++ a :: cs) = (initial.play (as ++ [a])).play cs := by
    intro cs
    rw [← play_append, List.append_assoc, List.singleton_append]
  rw [hplay] at hx ho
  obtain ⟨new, previous, ls, ht, hb⟩ := pending_of_teller? ho
  have hlistens : ∀ p, (initial.play (as ++ [a])).ListensTo b p → ∃ i, opened y i p := by
    intro p hp
    obtain ⟨w, hw, hbecomes⟩ := becomes_play hsilenced.sound (hheard.listed hp) hx
    obtain ⟨i, hi⟩ := hheard.opened hw hp
    exact ⟨i, by rwa [hbecomes.system, hsystem] at hi⟩
  refine (hsilenced.prompted hlistens ht hb).imp_right ?_
  rintro ⟨hnot, cs, c, ds, hbs, hprompts⟩
  exact ⟨fun i hi => hnot i (hopened i o hi), cs, c, ds, hbs, by rwa [hplay]⟩

/-- A binding of a sum is told of a stream's value after the shutdown, because a property that it reads was written. -/
theorem prompted_of_shutdown_set :
    let as : List Act := [.command (.makeSubject "s" none),
      .command (.makeObject "model" [("n$", .stream "s"), ("x", .int 1)]), .command (.makeObject "target" []),
      .command (.makeScope "scope" "model" none none),
      .command (.makeBinding "b" "main" (.ok (.binary .add (.scope "x" 0 false) (.streamScope "n$" 0 false))) "target"
        "value" {}),
      .command (.bind "b" "scope" none), .step, .step]
    let a : Act := .command (.shutdown "main")
    let bs : List Act := [.command (.set "model" "x" (.int 2)), .step, .step, .step, .step, .step,
      .command (.next "s" (.int 10)), .step]
    (initial.play (as ++ [a])).pending = [] ∧ (∀ i, ¬Opened (as ++ [a]) ⟨0⟩ i ⟨8⟩) ∧
      ∃ cs c ds, bs = cs ++ c :: ds ∧ Prompts (initial.play (as ++ a :: cs)) c ⟨6⟩ := by
  intro as a bs
  have hnone : (initial.play (as ++ [a])).pending = [] := List.isEmpty_iff.1 (by decide +kernel)
  have hsystem : ((initial.play as).system? "main").map (·.1) = some ⟨0⟩ := by decide +kernel
  have hbinding : ((initial.play (as ++ a :: bs)).bindings.get? ⟨6⟩).map (·.system) = some ⟨0⟩ := by decide +kernel
  obtain ⟨⟨y, z⟩, hy, rfl⟩ := Option.map_eq_some_iff.1 hsystem
  obtain ⟨x, hx, hxy⟩ := Option.map_eq_some_iff.1 hbinding
  have hteller : (initial.play (as ++ a :: bs)).teller? = some (⟨8⟩, ⟨6⟩) := by decide +kernel
  refine ⟨hnone, (prompted_of_shutdown as bs a rfl hy hx hxy hteller).resolve_left ?_⟩
  rintro ⟨o, new, previous, ls, ht, -⟩
  rw [hnone] at ht
  cases ht

/-- The emission after that changes what the binding has written to its target. -/
theorem target_after_shutdown :
    let as : List Act := [.command (.makeSubject "s" none),
      .command (.makeObject "model" [("n$", .stream "s"), ("x", .int 1)]), .command (.makeObject "target" []),
      .command (.makeScope "scope" "model" none none),
      .command (.makeBinding "b" "main" (.ok (.binary .add (.scope "x" 0 false) (.streamScope "n$" 0 false))) "target"
        "value" {}),
      .command (.bind "b" "scope" none), .step, .step, .command (.shutdown "main"),
      .command (.set "model" "x" (.int 2)), .step, .step, .step, .step, .step]
    let bs : List Act := .command (.next "s" (.int 10)) :: List.replicate 7 .step
    (initial.play as).pending = [] ∧ (initial.play (as ++ bs)).pending = [] ∧
      ((initial.play as).store.property ⟨3⟩ "value").display = "2" ∧
      ((initial.play (as ++ bs)).store.property ⟨3⟩ "value").display = "12" := by
  exact ⟨List.isEmpty_iff.1 (by decide +kernel), List.isEmpty_iff.1 (by decide +kernel), by decide +kernel,
    by decide +kernel⟩

end Session

end DataBinding
