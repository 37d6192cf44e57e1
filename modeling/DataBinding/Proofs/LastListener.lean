import DataBinding.Proofs.LettingGo
import DataBinding.Proofs.SinkEvents

/-!
# The last listener of an observer

An observer counts the registrations that it has, and is destroyed when the last one is taken away. A registration does
not keep its listener, and one of a listener that is gone counts on until a value is delivered; then those that are gone
are forgotten (`isSwept_act`). So whether an observer is destroyed when a listener leaves is decided by whether any
registration is left, and that is whether anybody is left to be told as long as no registered listener is gone
(`unlisten_last`). One that is gone keeps the observer from being destroyed (`not_destroyed_of_gone`).
-/

namespace DataBinding

/-- The observer without the registration. -/
def Observer.without (x : Observer) (n : Nat) : Observer := { x with listeners := x.listeners.remove n }

/-- The observer as it is after it was destroyed. -/
def Observer.destroyed (x : Observer) : Observer := { x with state := .destroyed, subscription := .closed }

namespace Session

variable {s t : Session} {a : Act} {as bs : List Act} {o : ObserverId} {n : Nat} {x : Observer}

/-! ### Listeners that are gone -/

/-- None of the listeners that are registered with the source is gone. -/
def IsSwept (s : Session) (z : Source) : Prop := ∀ e ∈ (s.store.listeners z).entries, s.isPresent e.2 = true

instance (s : Session) (z : Source) : Decidable (s.IsSwept z) :=
  inferInstanceAs (Decidable (∀ e ∈ (s.store.listeners z).entries, s.isPresent e.2 = true))

/-- Whoever is gone is forgotten at a notification. -/
theorem isSwept_notify (s : Session) (z : Source) (new previous : Value) :
    (s.notify z new previous).session.IsSwept z := by
  intro e he
  simp only [notify, (Store.relists_sweep s.store s.isPresent z).entries, if_true] at he
  exact (List.mem_filter.1 he).2

/-- What comes next is that an active observer is told of a value. -/
def TellsNext (s : Session) (o : ObserverId) : Prop :=
  ∃ i v ks rest x, s.pending = .deliver i (.next v) (.observer o :: ks) :: rest ∧
    s.store.observers.get? o = some x ∧ x.isActive = true

/-- A value that is delivered to an active observer leaves it with the registrations of those who are there. -/
theorem isSwept_receive (hx : s.store.observers.get? o = some x) (hactive : x.isActive = true) (v : Value) :
    (s.receive (.next v) (.observer o)).session.IsSwept (.observer o) := by
  simp only [receive, hx, Observer.receive, hactive, if_true, Reaction.andThen]
  exact isSwept_notify _ _ _ _

theorem isSwept_act (h : s.TellsNext o) : (s.act .step).IsSwept (.observer o) := by
  obtain ⟨i, v, ks, rest, x, hp, hx, hactive⟩ := h
  simp only [act, step, hp, doTask]
  exact isSwept_receive (s := ({ s with pending := rest } : Session).push [.deliver i (.next v) ks]) hx hactive v

/-- By the act no registered listener goes: if all of them were there before, all of them are there after. -/
def KeepsListeners (o : ObserverId) (s : Session) (a : Act) : Prop :=
  s.IsSwept (.observer o) → (s.act a).IsSwept (.observer o)

instance (o : ObserverId) (s : Session) (a : Act) : Decidable (KeepsListeners o s a) :=
  inferInstanceAs (Decidable (s.IsSwept (.observer o) → (s.act a).IsSwept (.observer o)))

theorem isSwept_play (h : s.IsSwept (.observer o)) (hkeeps : AtEach (KeepsListeners o) s bs) :
    (s.play bs).IsSwept (.observer o) := by
  induction bs generalizing s with
  | nil => exact h
  | cons a bs ih => exact ih (hkeeps.1 h) hkeeps.2

/-! ### Leaving an observer -/

theorem unlisten_observer (hx : s.store.observers.get? o = some x) (n : Nat) :
    s.unlisten (.observer o) n =
      let s' := { s with store := s.store.setObserver o (x.without n) }
      if x.listeners.has n && (x.listeners.remove n).isEmpty then s'.destroy o else s' := by
  have hstore : s.store.unlisten n (.observer o) = s.store.setObserver o (x.without n) := by
    simp [Store.unlisten, Table.modify, hx, Store.setObserver, Observer.without]
  have hrest : (s.store.setObserver o (x.without n)).listeners (.observer o) = x.listeners.remove n := by
    simp [Store.listeners, Store.setObserver, Table.get?_insert, Observer.without]
  simp only [unlisten, hstore, hrest]
  simp only [Store.listeners, hx]

/-- Who is destroyed already has nothing left to release. -/
theorem destroy_eq (hreleased : Released s) (hx : s.store.observers.get? o = some x) :
    s.destroy o = { s with store := s.store.setObserver o x.destroyed }.close x.subscription := by
  simp only [destroy, hx]
  split
  next hdestroyed =>
    have hclosed := hreleased hx hdestroyed
    have hsame : x.destroyed = x := by
      rw [Observer.destroyed, ← hclosed, ← of_decide_eq_true hdestroyed]
    rw [hclosed, hsame]
    simp [close, Store.setObserver, Table.insert_of_get? hx]
  · rfl

theorem unlisten_of_others (hx : s.store.observers.get? o = some x) (hothers : (x.listeners.remove n).entries ≠ []) :
    s.unlisten (.observer o) n = { s with store := s.store.setObserver o (x.without n) } := by
  have hempty : (x.listeners.remove n).isEmpty = false := by simpa [Listeners.isEmpty] using hothers
  simp [unlisten_observer hx, hempty]

theorem unlisten_of_last (hreleased : Released s) (hx : s.store.observers.get? o = some x)
    (hn : x.listeners.has n = true) (hlast : (x.listeners.remove n).entries = []) :
    s.unlisten (.observer o) n =
      { s with store := (s.store.setObserver o (x.without n)).setObserver o (x.without n).destroyed }.close
        x.subscription := by
  have hempty : (x.listeners.remove n).isEmpty = true := by simp [Listeners.isEmpty, hlast]
  have hreleased' : Released { s with store := s.store.setObserver o (x.without n) } :=
    hreleased.setObserver (x := x.without n) fun hd => hreleased (x := x) hx hd
  rw [unlisten_observer hx]
  simp only [hn, hempty, Bool.and_self, if_true]
  exact destroy_eq hreleased' (by simp [Store.setObserver, Table.get?_insert])

theorem get?_unlisten_of_last (hreleased : Released s) (hx : s.store.observers.get? o = some x)
    (hn : x.listeners.has n = true) (hlast : (x.listeners.remove n).entries = []) :
    (s.unlisten (.observer o) n).store.observers.get? o = some (x.without n).destroyed := by
  rw [unlisten_of_last hreleased hx hn hlast]
  simp [Store.setObserver, Table.get?_insert]

/-- When no registered listener is gone, an observer is destroyed if nobody who is there is left. -/
theorem isLive_unlisten_eq_false_iff (hreleased : Released s) (hx : s.store.observers.get? o = some x)
    (hn : x.listeners.has n = true) (hactive : x.isDestroyed = false) (hswept : s.IsSwept (.observer o)) :
    (s.unlisten (.observer o) n).store.isLive o = false ↔
      ∀ e ∈ (x.listeners.remove n).entries, s.isPresent e.2 = false := by
  have hpresent : ∀ e ∈ (x.listeners.remove n).entries, s.isPresent e.2 = true := by
    intro e he
    refine hswept e ?_
    simp only [Store.listeners, hx]
    exact (List.mem_filter.1 he).1
  by_cases hnil : (x.listeners.remove n).entries = []
  · have hdead : (s.unlisten (.observer o) n).store.isLive o = false := by
      rw [Store.isLive, get?_unlisten_of_last hreleased hx hn hnil]
      simp [Observer.destroyed, Observer.isDestroyed]
    simp [hdead, hnil]
  · have hstays : (x.without n).isDestroyed = false := hactive
    have hlive : (s.unlisten (.observer o) n).store.isLive o = true := by
      rw [unlisten_of_others hx hnil]
      simp [Store.isLive, Store.setObserver, Table.get?_insert, hstays]
    obtain ⟨e, he⟩ := List.exists_mem_of_ne_nil _ hnil
    simp only [hlive, Bool.true_eq_false, false_iff, not_forall]
    exact ⟨e, he, by simp [hpresent e he]⟩

/-- A destroyed observer is told nothing any more. -/
theorem isMute_of_destroyed (hw : Wired s) (hx : s.store.observers.get? o = some x) (hdestroyed : x.isDestroyed = true) :
    s.IsMute (.observer o) :=
  isMute_of_subscription hw fun i k => by simp [subscriptionOf, hx, hdestroyed]

theorem execute_unlisten {source : HostSource} {token : String} {z : Source} (hz : t.source? source = some z)
    (ht : t.tokens.get? token = some n) :
    t.execute (.unlisten source token) =
      { session := t.unlisten z n, reply := .flag ((t.store.listeners z).has n) } := by
  simp [execute, answer?, answerUnlisten, hz, ht]

/-- A registered listener leaves an observer. If other registrations are left, of whomever, then nothing but the one
goes. If none is left, the observer is destroyed, no subject tells it any more, and a cold stream's subscription is
released. When no registered listener is gone, then it is destroyed exactly if nobody is left to be told; and none is
when no listener has gone since the observer was told of a value. -/
theorem unlisten_last (as : List Act) {a : Act} {t : Session} {source : HostSource} {token : String} {o : ObserverId}
    {n : Nat} {x : Observer} (hc : (initial.play as).carriedOut? a = some (t, .unlisten source token))
    (hsource : t.source? source = some (.observer o)) (htoken : t.tokens.get? token = some n)
    (hx : t.store.observers.get? o = some x) (hn : x.listeners.has n = true) :
    let u := (initial.play as).act a
    let others := (x.listeners.remove n).entries
    (t.execute (.unlisten source token)).reply = .flag true ∧
    (others = [] → u.store.observers.get? o = some (x.without n).destroyed ∧ u.IsMute (.observer o) ∧
      u.released = t.released ++ x.subscription.label?.toList) ∧
    (others ≠ [] → u.store = t.store.setObserver o (x.without n) ∧ u.log = t.log) ∧
    (x.isDestroyed = false → t.IsSwept (.observer o) →
      (u.store.isLive o = false ↔ ∀ e ∈ others, t.isPresent e.2 = false)) ∧
    (∀ bs cs, as = bs ++ .step :: cs → (initial.play bs).TellsNext o →
      AtEach (KeepsListeners o) (initial.play (bs ++ [.step])) cs → t.IsSwept (.observer o)) := by
  intro u others
  obtain ⟨ts, us, ht, hu⟩ := eq_of_carriedOut? hc
  have hwired := (wired_play (as ++ [a])).1
  have hreleased : Released t := by
    rw [ht]
    exact (wired_play as).1.released
  rw [play_append] at hwired
  have hexecute := execute_unlisten hsource htoken
  have hafter : u = (t.unlisten (.observer o) n).push us := by
    rw [hexecute] at hu
    exact hu
  refine ⟨?_, fun h => ?_, fun h => ?_, fun hactive hswept => ?_, fun bs cs has htells hkeeps => ?_⟩
  · rw [hexecute]
    simp [Store.listeners, hx, hn]
  · have hdestroyed : u.store.observers.get? o = some (x.without n).destroyed := by
      rw [hafter]
      exact get?_unlisten_of_last hreleased hx hn h
    refine ⟨hdestroyed, isMute_of_destroyed hwired hdestroyed rfl, ?_⟩
    rw [hafter, unlisten_of_last hreleased hx hn h]
    exact released_close _ _
  · rw [hafter, unlisten_of_others hx h]
    exact ⟨rfl, rfl⟩
  · rw [hafter]
    exact isLive_unlisten_eq_false_iff hreleased hx hn hactive hswept
  · have hplay : (initial.play as).IsSwept (.observer o) := by
      rw [play_append] at hkeeps
      rw [has, play_append, play_cons]
      exact isSwept_play (isSwept_act htells) hkeeps
    rw [ht]
    exact hplay

/-- `b` is gone when the observer is told of a value, and its registration goes with it, so that the observer is
destroyed when `a` leaves. -/
theorem unlisten_last_swept :
    let bs : List Act := [.command (.makeSubject "s" none), .command (.observe "main" "s" (some "o")),
      .command (.makeRecorder "a" [] 1), .command (.makeRecorder "b" [] 1),
      .command (.listen (.observer "o") "a" "t"), .command (.listen (.observer "o") "b" "u"),
      .command (.drop .recorder "b"), .command (.next "s" (.int 1))]
    let s := initial.play (bs ++ .step :: List.replicate 4 .step)
    s.store.isLive ⟨2⟩ = true ∧ (s.act (.command (.unlisten (.observer "o") "t"))).store.isLive ⟨2⟩ = false := by
  intro bs s
  have hsome : (s.store.observers.get? ⟨2⟩).isSome = true := by decide +kernel
  obtain ⟨x, hx⟩ := Option.isSome_iff_exists.1 hsome
  have hlive : s.store.isLive ⟨2⟩ = true := by decide +kernel
  have hlisteners : s.store.listeners (.observer ⟨2⟩) = x.listeners := by simp only [Store.listeners, hx]
  have hn : x.listeners.has 0 = true := by
    rw [← hlisteners]
    decide +kernel
  have hothers : (x.listeners.remove 0).entries = [] := by
    rw [← hlisteners]
    exact List.isEmpty_iff.1 (by decide +kernel)
  have hsource : s.source? (.observer "o") = some (.observer ⟨2⟩) := by decide +kernel
  have htoken : s.tokens.get? "t" = some 0 := by decide +kernel
  have htells : (initial.play bs).TellsNext ⟨2⟩ := by
    have hbefore : ((initial.play bs).store.observers.get? ⟨2⟩).any (·.isActive) = true := by decide +kernel
    obtain ⟨y, hy, hactive⟩ := (Option.any_eq_true ..).1 hbefore
    exact ⟨⟨1⟩, .int 1, [], [], y, rfl, hy, hactive⟩
  have hkeeps : AtEach (KeepsListeners ⟨2⟩) (initial.play (bs ++ [.step])) (List.replicate 4 .step) := by
    decide +kernel
  have hactive : x.isDestroyed = false := by simpa [Store.isLive, hx] using hlive
  have hc : (initial.play (bs ++ .step :: List.replicate 4 .step)).carriedOut?
      (.command (.unlisten (.observer "o") "t")) = some (s, .unlisten (.observer "o") "t") := rfl
  obtain ⟨-, -, -, hexactly, hswept⟩ := unlisten_last _ hc hsource htoken hx hn
  have hdead := (hexactly hactive (hswept bs (List.replicate 4 .step) rfl htells hkeeps)).2 (by simp [hothers])
  exact ⟨hlive, hdead⟩

/-- A registration whose listener is gone keeps an observer that nobody listens to from being destroyed: `b` is gone,
nothing is delivered after that, and `a` leaves. -/
theorem not_destroyed_of_gone :
    ¬∀ (as : List Act) (a : Act) (t : Session) (source : HostSource) (token : String) (o : ObserverId) (n : Nat)
      (x : Observer), (initial.play as).carriedOut? a = some (t, .unlisten source token) →
      t.source? source = some (.observer o) → t.tokens.get? token = some n → t.store.observers.get? o = some x →
      (t.execute (.unlisten source token)).reply = .flag true →
      (∀ e ∈ (x.listeners.remove n).entries, t.isPresent e.2 = false) →
        ((initial.play as).act a).store.isLive o = false := by
  intro h
  let as : List Act := [.command (.makeSubject "s" none), .command (.observe "main" "s" (some "o")),
    .command (.makeRecorder "a" [] 1), .command (.makeRecorder "b" [] 1),
    .command (.listen (.observer "o") "a" "t"), .command (.listen (.observer "o") "b" "u"),
    .command (.drop .recorder "b")]
  let s := initial.play as
  have hsome : (s.store.observers.get? ⟨2⟩).isSome = true := by decide +kernel
  obtain ⟨x, hx⟩ := Option.isSome_iff_exists.1 hsome
  have hlisteners : s.store.listeners (.observer ⟨2⟩) = x.listeners := by simp only [Store.listeners, hx]
  have hsource : s.source? (.observer "o") = some (.observer ⟨2⟩) := by decide +kernel
  have htoken : s.tokens.get? "t" = some 0 := by decide +kernel
  have hn : (s.store.listeners (.observer ⟨2⟩)).has 0 = true := by decide +kernel
  have hreply : (s.execute (.unlisten (.observer "o") "t")).reply = .flag true := by
    rw [execute_unlisten hsource htoken, hn]
  have hgone : ∀ e ∈ (x.listeners.remove 0).entries, s.isPresent e.2 = false := by
    rw [← hlisteners]
    decide +kernel
  have hdead := h as (.command (.unlisten (.observer "o") "t")) s _ _ ⟨2⟩ 0 x rfl hsource htoken hx hreply hgone
  have hlive : ((initial.play as).act (.command (.unlisten (.observer "o") "t"))).store.isLive ⟨2⟩ = true := by
    decide +kernel
  exact absurd hdead (by simp [hlive])

end Session

end DataBinding
