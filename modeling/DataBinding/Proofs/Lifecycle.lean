import DataBinding.Proofs.Bystanders
import DataBinding.Proofs.Shutdown

/-!
# Observers only move forward

A stream need not keep to the rules: it may go on with events after it has failed or completed, tell an observer of
something while that one subscribes, or after it has been destroyed. In the runs here streams do all that
(`Occurrence.event`), between the acts of the host and of its listeners. An observer goes from being active to having
ended or being destroyed, and from having ended to being destroyed; and from the moment that it is not active any more
it has the value that it has then (`Observer.Follows`), and has nobody told of anything (`observer_moves_forward`).
-/

namespace DataBinding

/-- An observer in the one state may get to be in the other. -/
inductive ObserverState.Leads : ObserverState → ObserverState → Prop
  | stays (a : ObserverState) : Leads a a
  | ends (b : ObserverState) : Leads .active b
  | destroyed (a : ObserverState) : Leads a .destroyed

theorem ObserverState.Leads.trans {a b c : ObserverState} (h : a.Leads b) (h' : b.Leads c) : a.Leads c := by
  cases h with
  | stays => exact h'
  | ends => exact .ends c
  | destroyed =>
    cases h' with
    | stays | destroyed => exact .destroyed a

/-- The observer is the other one at the same time or later. -/
structure Observer.Follows (x y : Observer) : Prop where
  state : x.state.Leads y.state
  /-- Once it is not active, it keeps its value. -/
  value : x.isActive = false → y.value = x.value

namespace Observer

variable {x y z : Observer}

theorem Follows.refl (x : Observer) : x.Follows x := ⟨.stays _, fun _ => rfl⟩

/-- It never comes to be active again. -/
theorem Follows.isActive (h : x.Follows y) (hx : x.isActive = false) : y.isActive = false := by
  have hstate := h.state
  simp only [Observer.isActive, decide_eq_false_iff_not] at hx ⊢
  generalize x.state = a at hstate hx
  generalize y.state = b at hstate
  cases hstate with
  | stays => exact hx
  | ends => exact absurd rfl hx
  | destroyed => simp

theorem Follows.trans (h : x.Follows y) (h' : y.Follows z) : x.Follows z where
  state := h.state.trans h'.state
  value hx := (h'.value (h.isActive hx)).trans (h.value hx)

/-- Whatever an observer is told takes it forward. -/
theorem follows_receive (x : Observer) (e : StreamEvent) : x.Follows (x.receive e).1 := by
  cases hx : x.isActive with
  | false =>
    have hsame : (x.receive e).1 = x := by cases e <;> simp [receive, hx]
    rw [hsame]
    exact .refl x
  | true =>
    have hactive : x.state = .active := by simpa [Observer.isActive] using hx
    exact ⟨hactive ▸ .ends _, fun h => by simp [hx] at h⟩

theorem follows_receiveAll (x : Observer) (es : List StreamEvent) : x.Follows (x.receiveAll es) := by
  unfold receiveAll
  induction es generalizing x with
  | nil => exact .refl x
  | cons e es ih => exact (follows_receive x e).trans (ih _)

end Observer

/-- What happens next when streams do as they like. -/
inductive Occurrence
  | act (a : Act)
  /-- A stream tells an observer of an event, whether it ought to or not. -/
  | event (o : ObserverId) (e : StreamEvent)

namespace Session

variable {E : Effect → Prop} {e : Effect} {p q : Ghost × Session} {s : Session} {o : ObserverId} {x y : Observer}
  {w : Occurrence} {ws vs : List Occurrence}

/-! ### Moves -/

/-- Each move takes the observers forward that there are. -/
theorem Move.follows (hm : Move e p q) (hold : o.number < p.2.store.fresh)
    (hy : q.2.store.observers.get? o = some y) : ∃ x, p.2.store.observers.get? o = some x ∧ x.Follows y := by
  by_cases he : ∃ d, e = .receives o d
  · obtain ⟨d, rfl⟩ := he
    cases hm with
    | @receiving g s o x d hx =>
      simp only [Store.setObserver, Table.get?_insert, if_true] at hy
      obtain rfl := Option.some.inj hy
      exact ⟨x, hx, x.follows_receive d⟩
  · have hnot : ∀ d, e ≠ .receives o d := fun d hd => he ⟨d, hd⟩
    obtain ⟨x, hx, hcore⟩ := hm.observer_core hold hnot hy
    have hvalue := hm.observerValue (v := y.value) hold hnot (by simp [valueAt, hy])
    have hsame : y.value = x.value := by simpa [valueAt, hx] using hvalue.symm
    refine ⟨x, hx, ?_, fun _ => hsame⟩
    rcases hcore with hcore | ⟨-, hdestroyed⟩
    · have hstate : y.state = x.state := (congrArg (·.state) hcore : y.core.state = x.core.state)
      exact hstate ▸ .stays _
    · have hstate : y.state = .destroyed := by simpa [Observer.isDestroyed] using hdestroyed
      exact hstate ▸ .destroyed _

theorem Moves.follows (hm : Moves E p q) (hold : o.number < p.2.store.fresh)
    (hy : q.2.store.observers.get? o = some y) : ∃ x, p.2.store.observers.get? o = some x ∧ x.Follows y := by
  induction hm generalizing y with
  | refl => exact ⟨y, hy, .refl y⟩
  | tail hm hlast ih =>
    obtain ⟨f, -, hlast⟩ := hlast
    obtain ⟨z, hz, hzy⟩ := hlast.follows (Nat.lt_of_lt_of_le hold (Moves.fresh_le hm)) hy
    obtain ⟨x, hx, hxz⟩ := ih hz
    exact ⟨x, hx, hxz.trans hzy⟩

/-! ### Streams that do as they like -/

/-- What comes of telling an observer of an event. The value of the event is one that can be referred to. -/
def overhear (s : Session) (o : ObserverId) (e : StreamEvent) : Reaction :=
  if (sharedInEvent e).all s.held.contains then s.receive e (.observer o) else { session := s }

/-- The tasks that an occurrence leads to. -/
def begun (s : Session) : Occurrence → List Task
  | .act a => s.started a
  | .event o e => (s.overhear o e).tasks

def occur (s : Session) : Occurrence → Session
  | .act a => s.act a
  | .event o e => (s.overhear o e).session.push (s.overhear o e).tasks

/-- The session after all of that. -/
def occurAll (s : Session) (ws : List Occurrence) : Session := ws.foldl occur s

theorem occurAll_append (s : Session) (ws vs : List Occurrence) : s.occurAll (ws ++ vs) = (s.occurAll ws).occurAll vs :=
  List.foldl_append

/-- Whatever happens is a sequence of moves. -/
theorem moves_occur (hsound : Sound (· ∈ s.held) s) (w : Occurrence) :
    ∃ g, Moves (fun _ => True) (s.bare, s) (g, s.occur w) := by
  cases w with
  | act a =>
    obtain ⟨g, hm⟩ := moves_act hsound (fun _ _ _ => False) a
    exact ⟨g, hm.mono fun _ _ => trivial⟩
  | event o e =>
    refine Moves.push trivial ?_
    unfold overhear
    split
    next he =>
      have hwithin : Within (· ∈ s.held) (sharedInEvent e) := fun z hz =>
        List.contains_iff_mem.1 (List.all_eq_true.1 he z hz)
      exact (reacts_receive (g := s.bare) hsound hwithin (.observer o)).mono fun _ _ => trivial
    · exact ⟨s.bare, .refl, by simp⟩

theorem Sound.occur (hsound : Sound (· ∈ s.held) s) (w : Occurrence) : Sound (· ∈ (s.occur w).held) (s.occur w) := by
  obtain ⟨g, hm⟩ := moves_occur hsound w
  have hs : Sound g.hand (s.occur w) := hsound.moves hm
  exact hs.narrow

theorem Sound.occurAll (hsound : Sound (· ∈ s.held) s) (ws : List Occurrence) :
    Sound (· ∈ (s.occurAll ws).held) (s.occurAll ws) := by
  induction ws generalizing s with
  | nil => exact hsound
  | cons w ws ih => exact ih (hsound.occur w)

theorem Dated.occurAll (hsound : Sound (· ∈ s.held) s) (hd : Dated s) (ws : List Occurrence) :
    Dated (s.occurAll ws) := by
  induction ws generalizing s with
  | nil => exact hd
  | cons w ws ih =>
    obtain ⟨g, hm⟩ := moves_occur hsound w
    exact ih (hsound.occur w) (Dated.moves hm hd)

/-- What is there at the end of a run was there at its beginning if it is that old, and has moved forward. -/
theorem follows_occurAll (hsound : Sound (· ∈ s.held) s) (hold : o.number < s.store.fresh)
    (hy : (s.occurAll ws).store.observers.get? o = some y) : ∃ x, s.store.observers.get? o = some x ∧ x.Follows y := by
  induction ws generalizing s with
  | nil => exact ⟨y, hy, .refl y⟩
  | cons w ws ih =>
    obtain ⟨g, hm⟩ := moves_occur hsound w
    obtain ⟨z, hz, hzy⟩ := ih (hsound.occur w) (Nat.lt_of_lt_of_le hold (Moves.fresh_le hm)) hy
    obtain ⟨x, hx, hxz⟩ := Moves.follows hm hold hz
    exact ⟨x, hx, hxz.trans hzy⟩

/-- Only an active observer has its listeners told of something. -/
theorem isActive_of_begun (hsound : Sound (· ∈ s.held) s) {new previous : Value} {ls : List Listener}
    (ht : .notify (.observer o) new previous ls ∈ s.begun w) :
    ∃ y, s.store.observers.get? o = some y ∧ y.isActive = true := by
  cases w with
  | act a => exact (notify_started hsound ht).1
  | event p e =>
    have htasks : .notify (.observer o) new previous ls ∈ (s.overhear p e).tasks := ht
    unfold overhear at htasks
    split at htasks
    · exact (notify_of_receive htasks).2.1
    · cases htasks

/-- Whatever streams do, observers only move forward. While one subscribes, no sequence of events takes it back, and
neither does anything that happens afterwards. Once it is not active, it keeps its value, and nothing that happens from
then on has its listeners told of a change. -/
theorem observer_moves_forward :
    (∀ (x : Observer) (es ds : List StreamEvent), (x.receiveAll es).Follows (x.receiveAll (es ++ ds))) ∧
    ∀ (ws vs : List Occurrence) (o : ObserverId) (x : Observer),
      (initial.occurAll ws).store.observers.get? o = some x →
        (∀ y, (initial.occurAll (ws ++ vs)).store.observers.get? o = some y → x.Follows y) ∧
        (x.isActive = false → ∀ w new previous ls,
          .notify (.observer o) new previous ls ∉ (initial.occurAll (ws ++ vs)).begun w) := by
  have hlater (ws vs : List Occurrence) {o : ObserverId} {x y : Observer}
      (hx : (initial.occurAll ws).store.observers.get? o = some x)
      (hy : (initial.occurAll (ws ++ vs)).store.observers.get? o = some y) : x.Follows y := by
    have hsound := sound_initial.occurAll ws
    have hold : o.number < (initial.occurAll ws).store.fresh :=
      dated_initial.occurAll sound_initial ws (by rw [hx]; rfl)
    rw [occurAll_append] at hy
    obtain ⟨z, hz, hzy⟩ := follows_occurAll hsound hold hy
    obtain rfl := Option.some.inj (hx.symm.trans hz)
    exact hzy
  refine ⟨fun x es ds => ?_, fun ws vs o x hx => ⟨fun y => hlater ws vs hx, fun hactive w new previous ls ht => ?_⟩⟩
  · have happend : x.receiveAll (es ++ ds) = (x.receiveAll es).receiveAll ds := List.foldl_append
    rw [happend]
    exact Observer.follows_receiveAll _ ds
  · obtain ⟨y, hy, hyactive⟩ := isActive_of_begun (sound_initial.occurAll _) ht
    have hnot := (hlater ws vs hx hy).isActive hactive
    rw [hyactive] at hnot
    cases hnot

/-- A stream goes on after it has completed, and the observer is destroyed in the end. -/
theorem observer_moves_forward_late :
    let ws : List Occurrence := [.act (.command (.makeSubject "s" none)),
      .act (.command (.observe "main" "s" (some "o"))), .event ⟨2⟩ (.next (.int 1)), .event ⟨2⟩ .complete]
    let vs : List Occurrence := [.event ⟨2⟩ (.next (.int 2)), .event ⟨2⟩ (.error "late"),
      .act (.command (.destroy "o"))]
    let before := (initial.occurAll ws).store.observers.get? ⟨2⟩
    let after := (initial.occurAll (ws ++ vs)).store.observers.get? ⟨2⟩
    before.map (·.state) = some .completed ∧ after.map (·.state) = some .destroyed ∧
      after.map (·.value) = some (.int 1) ∧ ∀ w new previous ls,
        .notify (.observer ⟨2⟩) new previous ls ∉ (initial.occurAll (ws ++ vs)).begun w := by
  intro ws vs before after
  have hcompleted : before.map (·.state) = some .completed := by decide +kernel
  have hdestroyed : after.map (·.state) = some .destroyed := by decide +kernel
  have hone : before.map (·.value) = some (.int 1) := rfl
  obtain ⟨x, hx, hstate⟩ := Option.map_eq_some_iff.1 hcompleted
  obtain ⟨y, hy, -⟩ := Option.map_eq_some_iff.1 hdestroyed
  have hactive : x.isActive = false := by simp [Observer.isActive, hstate]
  obtain ⟨hfollows, hmute⟩ := observer_moves_forward.2 ws vs ⟨2⟩ x hx
  rw [hx, Option.map_some] at hone
  refine ⟨hcompleted, hdestroyed, ?_, hmute hactive⟩
  rw [hy, Option.map_some, (hfollows y hy).value hactive, hone]

end Session

end DataBinding
