import DataBinding.Registry

/-!
# Opening observers

What the store and the registry are after an observer was opened. A new observer has a fresh identity, it is not
destroyed, and what it holds is what the stream told its new sink; no other observer and no other stream is touched
(`openObserver_eq`). The registry hands its live observer out again and changes nothing, or it opens one, enters it and
keeps the live entries of streams that are alive (`observerFor_of_get?`, `observerFor_of_none`).
-/

namespace DataBinding

/-! ### Subscribing -/

/-- What a new sink of the stream is told at once. -/
def Stream.greeting : Stream → List StreamEvent
  | subject s => s.greeting
  | cold _ events => events

theorem Stream.subscribe_events (i : StreamId) (k : Sink) (x : Stream) : (x.subscribe i k).2.2 = x.greeting := by
  cases x with
  | subject s =>
    simp only [subscribe, greeting]
    split <;> rfl
  | cold => rfl

theorem Observer.receive_subscription (x : Observer) (c : Subscription) (e : StreamEvent) :
    ({ x with subscription := c }.receive e).1 = { (x.receive e).1 with subscription := c } := by
  obtain ⟨v, ls, c', st⟩ := x
  cases e <;> cases st <;> rfl

theorem Observer.receiveAll_subscription (x : Observer) (c : Subscription) (es : List StreamEvent) :
    { x with subscription := c }.receiveAll es = { x.receiveAll es with subscription := c } := by
  unfold receiveAll
  induction es generalizing x with
  | nil => rfl
  | cons e es ih => simp only [List.foldl_cons, receive_subscription, ih]

theorem Observer.receive_listeners (x : Observer) (e : StreamEvent) : (x.receive e).1.listeners = x.listeners := by
  cases e <;> simp only [receive] <;> split <;> rfl

/-- An observer that has a change to tell is active and has taken a new value. -/
theorem Observer.receive_eq_some {x : Observer} {e : StreamEvent} {new previous : Value}
    (h : (x.receive e).2 = some (new, previous)) :
    x.isActive = true ∧ e = .next new ∧ previous = x.value ∧ (x.receive e).1 = { x with value := new } := by
  cases e with
  | next v =>
    simp only [receive] at h ⊢
    split at h
    next hactive =>
      obtain ⟨rfl, rfl⟩ := Prod.mk.inj (Option.some.inj h)
      exact ⟨hactive, rfl, rfl, by rw [if_pos hactive]⟩
    · cases h
  | error | complete => cases h

/-- One that has none keeps its value. -/
theorem Observer.value_receive_of_none {x : Observer} {e : StreamEvent} (h : (x.receive e).2 = none) :
    (x.receive e).1.value = x.value := by
  cases e with
  | next v =>
    simp only [receive] at h ⊢
    split at h
    · cases h
    next hactive => rw [if_neg hactive]
  | error | complete =>
    simp only [receive]
    split <;> rfl

theorem Observer.isDestroyed_of_isActive {x : Observer} (h : x.isActive = true) : x.isDestroyed = false := by
  have hstate : x.state = .active := by simpa [isActive] using h
  simp [isDestroyed, hstate]

theorem Observer.isDestroyed_receive (x : Observer) (e : StreamEvent) :
    (x.receive e).1.isDestroyed = x.isDestroyed := by
  obtain ⟨v, ls, c, st⟩ := x
  cases e <;> cases st <;> rfl

theorem Observer.isDestroyed_receiveAll (x : Observer) (es : List StreamEvent) :
    (x.receiveAll es).isDestroyed = x.isDestroyed := by
  unfold receiveAll
  induction es generalizing x with
  | nil => rfl
  | cons e es ih => rw [List.foldl_cons, ih, isDestroyed_receive]

namespace Store

/-- What a new sink of the stream is told at once. -/
def greeting (s : Store) (i : StreamId) : List StreamEvent :=
  match s.streams.get? i with
  | some x => x.greeting
  | none => []

/-- What a new sink of the stream has to release later. -/
def subscription (s : Store) (i : StreamId) (k : Sink) : Subscription := (s.subscribe i k).2.1

theorem subscribe_eq (s : Store) (i : StreamId) (k : Sink) :
    s.subscribe i k =
      ({ s with streams := s.streams.modify i fun x => (x.subscribe i k).1 }, s.subscription i k, s.greeting i) := by
  unfold subscription subscribe greeting Table.modify
  cases h : s.streams.get? i with
  | none => rfl
  | some x => simp only [setStream, Stream.subscribe_events]

/-- The observer that is opened for a stream: what it is told while it subscribes is its value. -/
def opened (s : Store) (i : StreamId) : Observer :=
  { ({} : Observer).receiveAll (s.greeting i) with subscription := s.subscription i (.observer ⟨s.fresh⟩) }

theorem subscription_opened (s : Store) (i : StreamId) :
    (s.opened i).subscription = s.subscription i (.observer ⟨s.fresh⟩) := rfl

theorem isDestroyed_opened (s : Store) (i : StreamId) : (s.opened i).isDestroyed = false :=
  Observer.isDestroyed_receiveAll {} (s.greeting i)

theorem openObserver_eq (s : Store) (i : StreamId) :
    s.openObserver i =
      ({ s with
          fresh := s.fresh + 1
          streams := s.streams.modify i fun x => (x.subscribe i (.observer ⟨s.fresh⟩)).1
          observers := s.observers.insert ⟨s.fresh⟩ (s.opened i) },
        ⟨s.fresh⟩) := by
  have h : ({ s with fresh := s.fresh + 1 } : Store).subscription i (.observer ⟨s.fresh⟩) =
      s.subscription i (.observer ⟨s.fresh⟩) := by
    unfold subscription subscribe
    cases s.streams.get? i <;> rfl
  have ho := Observer.receiveAll_subscription {} (s.subscription i (.observer ⟨s.fresh⟩)) (s.greeting i)
  unfold openObserver opened
  simp only [subscribe_eq, setObserver, h]
  rw [← ho]
  rfl

theorem fresh_openObserver (s : Store) (i : StreamId) : (s.openObserver i).1.fresh = s.fresh + 1 := by
  rw [openObserver_eq]

theorem observers_openObserver (s : Store) (i : StreamId) (o : ObserverId) :
    (s.openObserver i).1.observers.get? o = if ⟨s.fresh⟩ = o then some (s.opened i) else s.observers.get? o := by
  rw [openObserver_eq]
  exact Table.get?_insert ..

theorem streams_openObserver (s : Store) (i j : StreamId) :
    (s.openObserver i).1.streams.get? j =
      if i = j then (s.streams.get? i).map fun x => (x.subscribe i (.observer ⟨s.fresh⟩)).1
      else s.streams.get? j := by
  rw [openObserver_eq]
  simp only [Table.get?_modify]

theorem isLive_iff {s : Store} {o : ObserverId} :
    s.isLive o = true ↔ ∃ x, s.observers.get? o = some x ∧ x.isDestroyed = false := by
  unfold isLive
  cases s.observers.get? o <;> simp

theorem isLive_openObserver (s : Store) (i : StreamId) (p : ObserverId) :
    (s.openObserver i).1.isLive p = (⟨s.fresh⟩ == p || s.isLive p) := by
  unfold isLive
  rw [observers_openObserver]
  by_cases h : (⟨s.fresh⟩ : ObserverId) = p
  · simp [h, isDestroyed_opened]
  · simp [h]

end Store

namespace Registry

variable {alive : StreamId → Bool} {s : Store} {r : Registry} {i : StreamId}

theorem get?_eq_some {o : ObserverId} :
    r.get? s i = some o ↔ r.entries.get? i = some o ∧ s.isLive o = true := by
  unfold get?
  exact Option.filter_eq_some_iff

theorem isLive_of_get?_none {o : ObserverId} (h : r.get? s i = none) (ho : r.entries.get? i = some o) :
    s.isLive o = false := by
  cases hl : s.isLive o with
  | false => rfl
  | true => simp [get?_eq_some.2 ⟨ho, hl⟩] at h

theorem observerFor_of_get? {o : ObserverId} (h : r.get? s i = some o) : r.observerFor alive s i = (s, r, o) := by
  unfold observerFor
  rw [h]

/-- The registry after an observer was opened and before it is entered. -/
def swept (alive : StreamId → Bool) (s : Store) (r : Registry) : Registry :=
  let r := { r with opened := r.opened + 1 }
  if r.isFull then r.prune alive s else r

theorem observerFor_of_none (h : r.get? s i = none) :
    r.observerFor alive s i =
      let s' := (s.openObserver i).1
      let r' := r.swept alive s'
      (s', { r' with entries := r'.entries.insert i ⟨s.fresh⟩ }, ⟨s.fresh⟩) := by
  unfold observerFor swept
  rw [h]
  simp only [Store.openObserver_eq]

/-- Sweeping takes dead entries away, if it takes any. -/
theorem get?_swept (alive : StreamId → Bool) (s : Store) (r : Registry) (j : StreamId) :
    (r.swept alive s).entries.get? j = r.entries.get? j ∨
      (r.swept alive s).entries.get? j = none ∧ ∀ p, r.entries.get? j = some p → isLiveEntry alive s j p = false := by
  unfold swept
  dsimp only
  split
  · simp only [prune, liveEntries, Table.get?_filter]
    cases h : r.entries.get? j with
    | none => simp
    | some p =>
      cases hp : isLiveEntry alive s j p with
      | true => exact .inl (Option.filter_some_pos hp)
      | false => exact .inr ⟨by simp [Option.filter, hp], by simpa using hp⟩
  · exact .inl rfl

theorem entries_swept {o : ObserverId} (h : (r.swept alive s).entries.get? i = some o) :
    r.entries.get? i = some o := by
  rcases get?_swept alive s r i with he | ⟨he, _⟩
  · rwa [he] at h
  · rw [he] at h
    cases h

theorem fresh_observerFor (alive : StreamId → Bool) (s : Store) (r : Registry) (i : StreamId) :
    s.fresh ≤ (r.observerFor alive s i).1.fresh := by
  cases h : r.get? s i with
  | some o => simp [observerFor_of_get? h]
  | none => simp [observerFor_of_none h, Store.fresh_openObserver]

/-- The observer that is handed out is not destroyed. -/
theorem isLive_observerFor (alive : StreamId → Bool) (s : Store) (r : Registry) (i : StreamId) :
    (r.observerFor alive s i).1.isLive (r.observerFor alive s i).2.2 = true := by
  cases h : r.get? s i with
  | some o => rw [observerFor_of_get? h]; exact (get?_eq_some.1 h).2
  | none => rw [observerFor_of_none h]; simp [Store.isLive_openObserver]

/-- The observer that is handed out is the one that the registry has from then on. -/
theorem get?_observerFor (alive : StreamId → Bool) (s : Store) (r : Registry) (i : StreamId) :
    (r.observerFor alive s i).2.1.get? (r.observerFor alive s i).1 i = some (r.observerFor alive s i).2.2 := by
  refine get?_eq_some.2 ⟨?_, isLive_observerFor alive s r i⟩
  cases h : r.get? s i with
  | some o => rw [observerFor_of_get? h]; exact (get?_eq_some.1 h).1
  | none => rw [observerFor_of_none h]; simp [Table.get?_insert]

/-- The live observer of another stream that is alive stays where it is. -/
theorem get?_observerFor_of_get? {j : StreamId} {o : ObserverId} (h : r.get? s j = some o) (hj : alive j = true) :
    (r.observerFor alive s i).2.1.get? (r.observerFor alive s i).1 j = some o := by
  cases hi : r.get? s i with
  | some p =>
    rw [observerFor_of_get? hi]
    exact h
  | none =>
    have hij : i ≠ j := by
      rintro rfl
      rw [hi] at h
      cases h
    obtain ⟨he, hlive⟩ := get?_eq_some.1 h
    rw [observerFor_of_none hi]
    have hlive' : (s.openObserver i).1.isLive o = true := by simp [Store.isLive_openObserver, hlive]
    refine get?_eq_some.2 ⟨?_, hlive'⟩
    simp only [Table.get?_insert, if_neg hij]
    rcases get?_swept alive (s.openObserver i).1 r j with hs | ⟨-, hdead⟩
    · rw [hs, he]
    · have hd := hdead o he
      simp [isLiveEntry, hlive', hj] at hd

/-- A stream without a live observer goes on to have none while one of another stream is opened. -/
theorem get?_observerFor_of_none {j : StreamId} (hold : ∀ {o}, r.entries.get? j = some o → o.number < s.fresh)
    (hij : i ≠ j) (h : r.get? s j = none) :
    (r.observerFor alive s i).2.1.get? (r.observerFor alive s i).1 j = none := by
  cases hi : r.get? s i with
  | some p =>
    rw [observerFor_of_get? hi]
    exact h
  | none =>
    rw [observerFor_of_none hi]
    refine Option.eq_none_iff_forall_ne_some.2 fun o ho => ?_
    obtain ⟨he, hlive⟩ := get?_eq_some.1 ho
    simp only [Table.get?_insert, if_neg hij] at he
    have he := entries_swept he
    have hne : (⟨s.fresh⟩ : ObserverId) ≠ o := fun heq => Nat.ne_of_gt (hold he) (congrArg Id.number heq)
    rw [Store.isLive_openObserver, isLive_of_get?_none h he] at hlive
    simp [hne] at hlive

end Registry

end DataBinding
