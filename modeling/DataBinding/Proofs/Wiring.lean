import DataBinding.Proofs.Moves

/-!
# Who is subscribed to what

Observers and the host's sinks each have a subscription to release, and a subject has a roll of the sinks that it tells.
Moves change the two together, and in few ways (`Move.rewires`). So they always agree: whoever is on a roll has the
subscription for it, and no two sinks share one (`Wired.rewires`).
-/

namespace DataBinding

def Sink.number : Sink → Nat
  | observer o => o.number
  | handler k => k.number

namespace Session

/-- What a sink has to release. A destroyed observer is no sink. -/
def subscriptionOf (s : Session) : Sink → Option Subscription
  | .observer o => (s.store.observers.get? o).bind fun x => if x.isDestroyed then none else some x.subscription
  | .handler k => (s.handlers.get? k).map (·.subscription)

/-- The sinks that a subject tells. -/
structure Roll where
  nextToken : Nat
  sinks : List (Nat × Sink)
  isClosed : Bool

namespace Roll

def of (x : Subject) : Roll := { nextToken := x.nextToken, sinks := x.sinks, isClosed := x.isClosed }

/-- The roll of the stream `i` after a subscription is released. -/
def without (c : Subscription) (i : StreamId) (x : Roll) : Roll :=
  match c with
  | .subject j t => if j = i then { x with sinks := x.sinks.filter fun e => e.1 != t } else x
  | _ => x

def add (k : Sink) (x : Roll) : Roll :=
  if x.isClosed then x else { x with nextToken := x.nextToken + 1, sinks := x.sinks ++ [(x.nextToken, k)] }

def ended (x : Roll) : Roll := { x with sinks := [], isClosed := true }

end Roll

/-- The roll of a stream that is a subject. -/
def Roll.ofStream : Stream → Option Roll
  | .subject x => some (.of x)
  | .cold .. => none

def rollOf (s : Session) (i : StreamId) : Option Roll := (s.store.streams.get? i).bind Roll.ofStream

/-- What a move does to subscriptions and rolls. -/
inductive Rewires (s s' : Session) : Prop
  | same (hs : s'.subscriptionOf = s.subscriptionOf) (hr : s'.rollOf = s.rollOf)
  /-- A sink releases its subscription. -/
  | left {k : Sink} {c : Subscription} {d : Option Subscription} (hk : s.subscriptionOf k = some c)
      (hd : ∀ c', d = some c' → c' = .closed ∧ ∃ n, k = .handler n)
      (hs : ∀ k', s'.subscriptionOf k' = if k = k' then d else s.subscriptionOf k')
      (hr : ∀ i, s'.rollOf i = (s.rollOf i).map (Roll.without c i))
  /-- A new sink subscribes to a stream. -/
  | joined {k : Sink} {i : StreamId} (hk : k.number = s.store.fresh) (hf : s'.store.fresh = s.store.fresh + 1)
      (hs : ∀ k', s'.subscriptionOf k' = if k = k' then some (s.store.subscription i k) else s.subscriptionOf k')
      (hr : ∀ j, s'.rollOf j = (s.rollOf j).map fun x => if i = j then x.add k else x)
  /-- A subject ends. -/
  | ended {i : StreamId} (hs : s'.subscriptionOf = s.subscriptionOf)
      (hr : ∀ j, s'.rollOf j = (s.rollOf j).map fun x => if i = j then x.ended else x)
  /-- A stream is made. -/
  | made {i : StreamId} (hi : i.number = s.store.fresh) (hf : s'.store.fresh = s.store.fresh + 1)
      (hs : s'.subscriptionOf = s.subscriptionOf) (hr : ∀ j, i ≠ j → s'.rollOf j = s.rollOf j)
      (hx : ∀ x, s'.rollOf i = some x → x.sinks = [])

variable {s s' : Session}

theorem isSome_subscriptionOf {o : ObserverId} : (s.subscriptionOf (.observer o)).isSome = s.store.isLive o := by
  unfold Store.isLive
  cases h : s.store.observers.get? o with
  | none => simp [subscriptionOf, h]
  | some x => cases hd : x.isDestroyed <;> simp [subscriptionOf, h, hd]

/-- A new sink of a subject that has not ended gets the next place on its roll. -/
theorem subscription_iff {i j : StreamId} {k : Sink} {t : Nat} :
    s.store.subscription i k = .subject j t ↔ j = i ∧ ∃ x, s.rollOf i = some x ∧ x.isClosed = false ∧ x.nextToken = t := by
  unfold Store.subscription Store.subscribe rollOf
  cases s.store.streams.get? i with
  | none => simp
  | some x =>
    cases x with
    | cold label events => simp [Stream.subscribe, Roll.ofStream]
    | subject x =>
      cases hc : x.isClosed with
      | true => simp [Stream.subscribe, Subject.subscribe, hc, Roll.ofStream, Roll.of]
      | false =>
        have hij : i = j ↔ j = i := eq_comm
        simp [Stream.subscribe, Subject.subscribe, hc, Roll.ofStream, Roll.of, hij]

theorem rollOf_close (s : Session) (c : Subscription) (i : StreamId) :
    (s.close c).rollOf i = (s.rollOf i).map (Roll.without c i) := by
  unfold rollOf
  rw [close_streams]
  cases s.store.streams.get? i with
  | none => rfl
  | some x =>
    cases x with
    | cold label events =>
      simp only [Option.map_some, Option.bind_some, closedStream, Stream.unsubscribe]
      split
      · split <;> rfl
      · rfl
    | subject x =>
      simp only [Option.map_some, Option.bind_some, closedStream, Roll.ofStream]
      cases c with
      | subject j t =>
        by_cases hj : j = i
        · simp only [hj, if_true, Roll.without]
          rfl
        · simp only [hj, if_false, Roll.without]
      | closed | cold => rfl

theorem ofStream_subscribe (i : StreamId) (k : Sink) (x : Stream) :
    Roll.ofStream (x.subscribe i k).1 = (Roll.ofStream x).map (Roll.add k) := by
  cases x with
  | cold => rfl
  | subject x =>
    by_cases hc : x.terminal.isSome <;>
      simp [Stream.subscribe, Subject.subscribe, Subject.isClosed, hc, Roll.ofStream, Roll.of, Roll.add]

theorem ofStream_emit (x : Subject) (v : Value) : Roll.of (x.emit v).1 = .of x := by
  unfold Subject.emit
  split <;> rfl

theorem ofStream_terminate (x : Subject) (e : StreamEvent) : Roll.of (x.terminate e).1 = (Roll.of x).ended := by
  unfold Subject.terminate
  split
  next hc =>
    have hs : x.sinks = [] := x.released hc
    simp [Roll.of, Roll.ended, hs, hc]
  · rfl

/-! ### Moves -/

theorem Observer.subscription_receive (x : Observer) (e : StreamEvent) : (x.receive e).1.subscription = x.subscription := by
  cases e <;> simp only [Observer.receive] <;> split <;> rfl

theorem subscriptionOf_setObserver (s : Session) {o : ObserverId} {x y : Observer}
    (h : s.store.observers.get? o = some x) (hd : y.isDestroyed = x.isDestroyed)
    (hc : y.subscription = x.subscription) :
    ({ s with store := s.store.setObserver o y } : Session).subscriptionOf = s.subscriptionOf := by
  funext k
  cases k with
  | handler k => rfl
  | observer p =>
    simp only [subscriptionOf, Store.setObserver, Table.get?_insert]
    split
    next hop =>
      subst hop
      simp [h, hd, hc]
    · rfl

theorem subscriptionOf_setHandler (s : Session) (k : SinkId) (x : Handler) (k' : Sink) :
    ({ s with handlers := s.handlers.insert k x } : Session).subscriptionOf k' =
      if .handler k = k' then some x.subscription else s.subscriptionOf k' := by
  cases k' with
  | observer o => rw [if_neg (by simp)]; rfl
  | handler k' =>
    simp only [subscriptionOf, Table.get?_insert, Sink.handler.injEq]
    split <;> rfl

theorem subscriptionOf_close (s : Session) (c : Subscription) : (s.close c).subscriptionOf = s.subscriptionOf := by
  funext k
  cases k <;> simp only [subscriptionOf, close_observers, close_handlers]

theorem rollOf_setStream (s : Session) (i : StreamId) (x : Stream) (j : StreamId) :
    ({ s with store := s.store.setStream i x } : Session).rollOf j = if i = j then Roll.ofStream x else s.rollOf j := by
  simp only [rollOf, Store.setStream, Table.get?_insert]
  split <;> rfl

theorem rollOf_of_get? {i : StreamId} {x : Subject} (h : s.store.streams.get? i = some (.subject x)) :
    s.rollOf i = some (.of x) := by
  simp [rollOf, h, Roll.ofStream]

theorem rollOf_modify (s : Session) (i : StreamId) (k : Sink) (j : StreamId) :
    ({ s with store := (s.store.subscribe i k).1 } : Session).rollOf j =
      (s.rollOf j).map fun x => if i = j then x.add k else x := by
  unfold rollOf
  rw [streams_subscribe]
  cases s.store.streams.get? j with
  | none => rfl
  | some x =>
    simp only [Option.map_some, Option.bind_some]
    split
    · exact ofStream_subscribe i k x
    · simp

theorem subscriptionOf_openObserver (s : Session) (i : StreamId) (t : Table SystemId System) (k : Sink) :
    ({ s with store := (s.store.openObserver i).1, systems := t } : Session).subscriptionOf k =
      if .observer ⟨s.store.fresh⟩ = k then some (s.store.subscription i (.observer ⟨s.store.fresh⟩))
      else s.subscriptionOf k := by
  rw [Store.openObserver_eq]
  cases k with
  | handler k => rw [if_neg (by simp)]; rfl
  | observer o =>
    simp only [subscriptionOf, Table.get?_insert, Sink.observer.injEq]
    split
    · simp [Store.isDestroyed_opened, Store.subscription_opened]
    · rfl

theorem rollOf_openObserver (s : Session) (i : StreamId) (t : Table SystemId System) (j : StreamId) :
    ({ s with store := (s.store.openObserver i).1, systems := t } : Session).rollOf j =
      (s.rollOf j).map fun x => if i = j then x.add (.observer ⟨s.store.fresh⟩) else x := by
  have h := rollOf_modify s i (.observer ⟨s.store.fresh⟩) j
  rw [Store.subscribe_eq] at h
  rw [Store.openObserver_eq]
  exact h

/-- Destroyed observers have nothing left to release. -/
def Released (s : Session) : Prop :=
  ∀ ⦃o x⦄, s.store.observers.get? o = some x → x.isDestroyed = true → x.subscription = .closed

theorem Released.setObserver (h : Released s) {o : ObserverId} {x : Observer}
    (hx : x.isDestroyed = true → x.subscription = .closed) :
    Released { s with store := s.store.setObserver o x } := by
  intro p y hy
  simp only [Store.setObserver, Table.get?_insert] at hy
  split at hy
  · obtain rfl := Option.some.inj hy
    exact hx
  · exact h hy

theorem Released.close (h : Released s) (c : Subscription) : Released (s.close c) := by
  intro o x hx
  rw [close_observers] at hx
  exact h hx

theorem Released.move {e : Effect} {a b : Ghost × Session} (hm : Move e a b) (h : Released a.2) : Released b.2 := by
  cases hm with
  | @opening g s y i =>
    rw [Store.openObserver_eq]
    refine Released.setObserver (s := s) h fun hd => ?_
    rw [Store.isDestroyed_opened] at hd
    cases hd
  | destroying => exact (h.setObserver fun _ => rfl).close _
  | @erasing g s o x ho =>
    refine Released.close (fun p y hy => ?_) _
    rw [Table.get?_erase] at hy
    split at hy
    · cases hy
    · exact h hy
  | listening ho | hearing ho =>
    have hx := h ho
    exact h.setObserver hx
  | receiving ho =>
    refine h.setObserver fun hd => ?_
    rw [Observer.isDestroyed_receive] at hd
    rw [Observer.subscription_receive]
    exact h ho hd
  | @releasing g s k x hk =>
    have hr : Released { s with handlers := s.handlers.insert k { x with subscription := .closed } } := h
    exact hr.close _
  | subscribing =>
    intro o x hx
    rw [Store.subscribe_eq] at hx
    exact h hx
  | _ => exact h

/-- A move changes subscriptions and rolls in one of those ways. -/
theorem Move.rewires {e : Effect} {a b : Ghost × Session} (hm : Move e a b) (hr : Released a.2) : Rewires a.2 b.2 := by
  cases hm with
  | quiet | work | narrowing | names | scope | bindings | newBinding | records | systems | newObject | object | putting =>
    exact .same rfl rfl
  | @opening g s y i t hi hy hfree hs hc he =>
    exact .joined (k := .observer ⟨s.store.fresh⟩) (i := i) rfl (by rw [Store.openObserver_eq])
      (subscriptionOf_openObserver s i t) (rollOf_openObserver s i t)
  | @destroying g s o x h hx =>
    refine .left (k := .observer o) (c := x.subscription) (d := none) ?_ (by simp) (fun k' => ?_) fun i => ?_
    · simp [subscriptionOf, h, hx]
    · rw [subscriptionOf_close]
      cases k' with
      | handler k => rw [if_neg (by simp)]; rfl
      | observer p =>
        simp only [subscriptionOf, Store.setObserver, Table.get?_insert, Sink.observer.injEq]
        split
        · simp [Observer.isDestroyed]
        · rfl
    · exact rollOf_close ..
  | @erasing g s o x ho =>
    have hs : ∀ k', ({ s with store := { s.store with observers := s.store.observers.erase o } } : Session).subscriptionOf k' =
        if .observer o = k' then none else s.subscriptionOf k' := by
      intro k'
      cases k' with
      | handler k => rw [if_neg (by simp)]; rfl
      | observer p =>
        simp only [subscriptionOf, Table.get?_erase, Sink.observer.injEq]
        split <;> rfl
    cases hx : x.isDestroyed with
    | false =>
      refine .left (k := .observer o) (c := x.subscription) (d := none) ?_ (by simp) (fun k' => ?_) fun i => ?_
      · simp [subscriptionOf, ho, hx]
      · rw [subscriptionOf_close, hs]
      · exact rollOf_close ..
    | true =>
      rw [hr ho hx]
      refine .same (funext fun k' => ?_) rfl
      rw [subscriptionOf_close, hs]
      split
      next hk =>
        subst hk
        simp [subscriptionOf, ho, hx]
      · rfl
  | listening h | hearing h => exact .same (subscriptionOf_setObserver _ h rfl rfl) rfl
  | receiving h =>
    exact .same (subscriptionOf_setObserver _ h (Observer.isDestroyed_receive ..) (Observer.subscription_receive ..)) rfl
  | @releasing g s k x h =>
    refine .left (k := .handler k) (c := x.subscription) (d := some .closed) ?_ (by simp) (fun k' => ?_) fun i => ?_
    · simp [subscriptionOf, h]
    · rw [subscriptionOf_close, subscriptionOf_setHandler]
    · exact rollOf_close ..
  | @subscribing g s i x hx =>
    refine .joined (k := .handler ⟨s.store.fresh⟩) (i := i) rfl (by simp [Store.subscribe_eq]) (fun k' => ?_) fun j => ?_
    · rw [← hx]
      have := subscriptionOf_setHandler { s with
        store := ({ s.store with fresh := s.store.fresh + 1 }.subscribe i (.handler ⟨s.store.fresh⟩)).1 } ⟨s.store.fresh⟩ x k'
      rw [this]
      cases k' <;> simp [subscriptionOf, Store.subscribe_eq]
    · exact rollOf_modify { s with store := { s.store with fresh := s.store.fresh + 1 } } i _ j
  | @handler g s k x x' h hx =>
    refine .same (funext fun k' => ?_) rfl
    rw [subscriptionOf_setHandler]
    split
    next hk =>
      subst hk
      simp [subscriptionOf, h, hx]
    · rfl
  | @newStream g s x h hx =>
    refine .made (i := ⟨s.store.fresh⟩) rfl rfl rfl (fun j hj => ?_) fun y hy => ?_
    · simp [rollOf, Store.newStream, Table.get?_insert, hj]
    · have hy : Roll.ofStream x = some y := by simpa [rollOf, Store.newStream, Table.get?_insert] using hy
      cases x with
      | cold => cases hy
      | subject z =>
        obtain rfl := Option.some.inj hy
        exact hx z rfl
  | @emitting g s i x v h hi hv =>
    refine .same rfl (funext fun j => ?_)
    rw [rollOf_setStream]
    split
    next hj =>
      subst hj
      rw [rollOf_of_get? h, Roll.ofStream, ofStream_emit]
    · rfl
  | @ending g s i x e h he =>
    refine .ended (i := i) rfl fun j => ?_
    rw [rollOf_setStream]
    split
    next hj =>
      subst hj
      rw [rollOf_of_get? h, Roll.ofStream, ofStream_terminate, Option.map_some]
    · simp

theorem Move.fresh_le {e : Effect} {a b : Ghost × Session} (hm : Move e a b) : a.2.store.fresh ≤ b.2.store.fresh := by
  cases hm with
  | quiet hf => exact hf
  | opening =>
    rw [Store.openObserver_eq]
    exact Nat.le_succ _
  | subscribing =>
    rw [Store.subscribe_eq]
    exact Nat.le_succ _
  | destroying | erasing | releasing => simp only [close_fresh, Store.setObserver, Nat.le_refl]
  | newObject | newStream | newBinding => exact Nat.le_succ _
  | _ => exact Nat.le_refl _

theorem Moves.fresh_le {E : Effect → Prop} {a b : Ghost × Session} (hm : Moves E a b) :
    a.2.store.fresh ≤ b.2.store.fresh := by
  induction hm with
  | refl => exact Nat.le_refl _
  | tail _ hlast ih =>
    obtain ⟨e, -, hlast⟩ := hlast
    exact Nat.le_trans ih hlast.fresh_le

/-- Subscriptions and rolls agree. -/
structure Wired (s : Session) : Prop where
  released : Released s
  old {k : Sink} : (s.subscriptionOf k).isSome → k.number < s.store.fresh
  owned {i : StreamId} {x : Roll} {t : Nat} {k : Sink} :
    s.rollOf i = some x → (t, k) ∈ x.sinks → s.subscriptionOf k = some (.subject i t)
  apart {k k' : Sink} {i : StreamId} {t : Nat} :
    s.subscriptionOf k = some (.subject i t) → s.subscriptionOf k' = some (.subject i t) → k = k'
  issued {k : Sink} {i : StreamId} {t : Nat} :
    s.subscriptionOf k = some (.subject i t) → i.number < s.store.fresh ∧ ∀ x, s.rollOf i = some x → t < x.nextToken

theorem Wired.left (h : Wired s) (hreleased : Released s') (hf : s.store.fresh ≤ s'.store.fresh) {k : Sink}
    {c : Subscription} {c' : Option Subscription} (hk : s.subscriptionOf k = some c)
    (hc : ∀ d, c' = some d → d = .closed)
    (hs : ∀ k', s'.subscriptionOf k' = if k = k' then c' else s.subscriptionOf k')
    (hr : ∀ i, s'.rollOf i = (s.rollOf i).map (Roll.without c i)) : Wired s' := by
  have hold : ∀ {k' i t}, s'.subscriptionOf k' = some (.subject i t) → s.subscriptionOf k' = some (.subject i t) := by
    intro k' i t hk'
    rw [hs] at hk'
    split at hk'
    · cases hc _ hk'
    · exact hk'
  have hroll : ∀ {i x'}, s'.rollOf i = some x' →
      ∃ x, s.rollOf i = some x ∧ x'.nextToken = x.nextToken ∧ ∀ t k', (t, k') ∈ x'.sinks →
        (t, k') ∈ x.sinks ∧ c ≠ .subject i t := by
    intro i x' hx'
    rw [hr] at hx'
    obtain ⟨x, hx, rfl⟩ := Option.map_eq_some_iff.1 hx'
    refine ⟨x, hx, ?_, fun t k' ht => ?_⟩
    · unfold Roll.without
      split
      · split <;> rfl
      · rfl
    · unfold Roll.without at ht
      split at ht
      next j u =>
        split at ht
        next hj =>
          subst hj
          obtain ⟨hmem, hu⟩ := List.mem_filter.1 ht
          have hu : t ≠ u := by simpa using hu
          exact ⟨hmem, by simp [Ne.symm hu]⟩
        next hj => exact ⟨ht, by simp [hj]⟩
      next hnot => exact ⟨ht, hnot _ _⟩
  constructor
  case released => exact hreleased
  case old =>
    intro k' hk'
    rw [hs] at hk'
    split at hk'
    next he =>
      subst he
      exact Nat.lt_of_lt_of_le (h.old (by simp [hk])) hf
    · exact Nat.lt_of_lt_of_le (h.old hk') hf
  case owned =>
    intro i x' t k' hx' ht
    obtain ⟨x, hx, -, hsinks⟩ := hroll hx'
    obtain ⟨hmem, hne⟩ := hsinks t k' ht
    have hown := h.owned hx hmem
    rw [hs, if_neg fun he => ?_]
    · exact hown
    · rw [← he, hk] at hown
      exact hne (Option.some.inj hown)
  case apart => exact fun hk' hk'' => h.apart (hold hk') (hold hk'')
  case issued =>
    intro k' i t hk'
    obtain ⟨hi, ht⟩ := h.issued (hold hk')
    refine ⟨Nat.lt_of_lt_of_le hi hf, fun x' hx' => ?_⟩
    obtain ⟨x, hx, hn, -⟩ := hroll hx'
    exact hn ▸ ht x hx

theorem Wired.joined (h : Wired s) (hreleased : Released s') (hknown : ∀ i, (s.rollOf i).isSome → i.number < s.store.fresh)
    {k : Sink} {i : StreamId} (hk : k.number = s.store.fresh) (hf : s'.store.fresh = s.store.fresh + 1)
    (hs : ∀ k', s'.subscriptionOf k' = if k = k' then some (s.store.subscription i k) else s.subscriptionOf k')
    (hr : ∀ j, s'.rollOf j = (s.rollOf j).map fun x => if i = j then x.add k else x) : Wired s' := by
  have hnew : ∀ {k'}, (s.subscriptionOf k').isSome → k ≠ k' := by
    rintro k' hk' rfl
    exact Nat.lt_irrefl _ (hk ▸ h.old hk')
  have hself : ∀ {j t}, s'.subscriptionOf k = some (.subject j t) →
      j = i ∧ ∃ x, s.rollOf i = some x ∧ x.isClosed = false ∧ x.nextToken = t := by
    intro j t ht
    rw [hs, if_pos rfl] at ht
    exact subscription_iff.1 (Option.some.inj ht)
  constructor
  case released => exact hreleased
  case old =>
    intro k' hk'
    rw [hs] at hk'
    split at hk'
    next he =>
      subst he
      omega
    · have := h.old hk'
      omega
  case owned =>
    intro j x' t k' hx' ht
    rw [hr] at hx'
    obtain ⟨x, hx, rfl⟩ := Option.map_eq_some_iff.1 hx'
    have hbefore : (t, k') ∈ x.sinks → s'.subscriptionOf k' = some (.subject j t) := by
      intro hmem
      have hown := h.owned hx hmem
      rw [hs, if_neg (hnew (by simp [hown])), hown]
    split at ht
    next hij =>
      subst hij
      unfold Roll.add at ht
      split at ht
      · exact hbefore ht
      next hopen =>
        rcases List.mem_append.1 ht with ht | ht
        · exact hbefore ht
        · obtain ⟨rfl, rfl⟩ := Prod.mk.inj (List.mem_singleton.1 ht)
          rw [hs, if_pos rfl]
          exact congrArg some (subscription_iff.2 ⟨rfl, x, hx, by simpa using hopen, rfl⟩)
    · exact hbefore ht
  case apart =>
    -- a sink that was there before has a smaller token
    have hself' : ∀ {k' j t}, s'.subscriptionOf k = some (.subject j t) → s'.subscriptionOf k' = some (.subject j t) →
        k = k' := by
      intro k' j t ht ht'
      obtain ⟨rfl, x, hx, -, rfl⟩ := hself ht
      refine Classical.byContradiction fun hne => ?_
      rw [hs, if_neg hne] at ht'
      exact Nat.lt_irrefl _ ((h.issued ht').2 x hx)
    intro k₁ k₂ j t h₁ h₂
    by_cases he₁ : k = k₁
    · subst he₁
      exact hself' h₁ h₂
    · by_cases he₂ : k = k₂
      · subst he₂
        exact (hself' h₂ h₁).symm
      · rw [hs, if_neg he₁] at h₁
        rw [hs, if_neg he₂] at h₂
        exact h.apart h₁ h₂
  case issued =>
    intro k' j t hk'
    have hgrow : ∀ {x}, s.rollOf j = some x → ∀ x', s'.rollOf j = some x' → x.nextToken ≤ x'.nextToken ∧
        (i = j → x.isClosed = false → x.nextToken < x'.nextToken) := by
      intro x hx x' hx'
      rw [hr, hx] at hx'
      obtain rfl := Option.some.inj hx'
      dsimp only
      by_cases hij : i = j
      · rw [if_pos hij, Roll.add]
        split
        next hc => exact ⟨Nat.le_refl _, fun _ ho => by simp [ho] at hc⟩
        · exact ⟨Nat.le_succ _, fun _ _ => Nat.lt_succ_self _⟩
      · rw [if_neg hij]
        exact ⟨Nat.le_refl _, fun he => absurd he hij⟩
    by_cases he : k = k'
    · subst he
      obtain ⟨rfl, x, hx, ho, rfl⟩ := hself hk'
      refine ⟨?_, fun x' hx' => (hgrow hx x' hx').2 rfl ho⟩
      have := hknown j (by simp [hx])
      omega
    · rw [hs, if_neg he] at hk'
      obtain ⟨hj, ht⟩ := h.issued hk'
      refine ⟨by omega, fun x' hx' => ?_⟩
      have hsome : (s.rollOf j).isSome := by
        rw [hr] at hx'
        obtain ⟨x, hx, -⟩ := Option.map_eq_some_iff.1 hx'
        simp [hx]
      obtain ⟨x, hx⟩ := Option.isSome_iff_exists.1 hsome
      exact Nat.lt_of_lt_of_le (ht x hx) (hgrow hx x' hx').1

/-- A change that keeps subscriptions, and on the rolls only takes sinks off. -/
theorem Wired.frame (h : Wired s) (hreleased : Released s') (hf : s.store.fresh ≤ s'.store.fresh)
    (hs : s'.subscriptionOf = s.subscriptionOf)
    (hr : ∀ i x', s'.rollOf i = some x' → x'.sinks = [] ∧ s.store.fresh ≤ i.number ∨
      ∃ x, s.rollOf i = some x ∧ x'.nextToken = x.nextToken ∧ ∀ e ∈ x'.sinks, e ∈ x.sinks) : Wired s' := by
  constructor
  case released => exact hreleased
  case old =>
    intro k hk
    rw [hs] at hk
    exact Nat.lt_of_lt_of_le (h.old hk) hf
  case owned =>
    intro i x' t k hx' ht
    rw [hs]
    rcases hr i x' hx' with ⟨hnil, -⟩ | ⟨x, hx, -, hsub⟩
    · simp [hnil] at ht
    · exact h.owned hx (hsub _ ht)
  case apart =>
    intro k k' i t hk hk'
    rw [hs] at hk hk'
    exact h.apart hk hk'
  case issued =>
    intro k i t hk
    rw [hs] at hk
    obtain ⟨hi, ht⟩ := h.issued hk
    refine ⟨Nat.lt_of_lt_of_le hi hf, fun x' hx' => ?_⟩
    rcases hr i x' hx' with ⟨-, hle⟩ | ⟨x, hx, hn, -⟩
    · omega
    · exact hn ▸ ht x hx

/-- Whatever moves do, subscriptions and rolls agree. -/
theorem Wired.move {e : Effect} {a b : Ghost × Session} (hm : Move e a b) (hsound : Sound a.1.hand a.2) (h : Wired a.2) :
    Wired b.2 := by
  have hf := hm.fresh_le
  have hreleased := h.released.move hm
  cases hm.rewires h.released with
  | same hs hr => exact h.frame hreleased hf hs fun i x' hx' => .inr ⟨x', hr ▸ hx', rfl, fun _ => id⟩
  | left hk hc hs hr => exact h.left hreleased hf hk (fun d hd => (hc d hd).1) hs hr
  | joined hk hf' hs hr =>
    refine h.joined hreleased (fun i hi => ?_) hk hf' hs hr
    obtain ⟨x, hx⟩ := Option.isSome_iff_exists.1 hi
    obtain ⟨y, hy, -⟩ := Option.bind_eq_some_iff.1 hx
    exact hsound.old (x := .stream i) (by simp [Store.Knows, hy])
  | @ended i hs hr =>
    refine h.frame hreleased hf hs fun j x' hx' => .inr ?_
    rw [hr] at hx'
    obtain ⟨x, hx, rfl⟩ := Option.map_eq_some_iff.1 hx'
    refine ⟨x, hx, ?_⟩
    split
    · exact ⟨rfl, fun e he => by cases he⟩
    · exact ⟨rfl, fun _ => id⟩
  | @made i hi hf' hs hr hx =>
    refine h.frame hreleased hf hs fun j x' hx' => ?_
    by_cases hij : i = j
    · subst hij
      exact .inl ⟨hx x' hx', Nat.le_of_eq hi.symm⟩
    · exact .inr ⟨x', hr j hij ▸ hx', rfl, fun _ => id⟩

theorem Wired.moves {E : Effect → Prop} {a b : Ghost × Session} (hm : Moves E a b) (hsound : Sound a.1.hand a.2)
    (h : Wired a.2) : Wired b.2 := by
  induction hm with
  | refl => exact h
  | tail hm hlast ih =>
    obtain ⟨e, -, hlast⟩ := hlast
    exact ih.move hlast (hsound.moves hm)

end Session

end DataBinding
