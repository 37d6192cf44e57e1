import DataBinding.Proofs.Wiring

/-!
# Bystanders

Sinks and listeners come and go while streams and observers stand by. What these are apart from whom they tell
(`Stream.core`, `Observer.core`) changes with their own events only: a stream has to emit or to end (`Moves.coreOf`), and
an observer has to be told of something or to be destroyed (`Moves.observer_core`). Whom a subject tells can be read off
the subscriptions: whoever has one for it is on its roll as long as it has not ended (`Enrolled`). So where the same
sinks have the same subscriptions, subjects tell the same sinks (`sinks_eq`).
-/

namespace DataBinding

/-- The stream without its sinks. -/
def Stream.core : Stream → Stream
  | .subject x => .subject { latest := x.latest, replays := x.replays, terminal := x.terminal, released := fun _ => rfl }
  | .cold label events => .cold label events

/-- The observer without its listeners. -/
def Observer.core (x : Observer) : Observer := { x with listeners := {} }

theorem Stream.core_unsubscribe (token : Nat) (x : Stream) : (x.unsubscribe token).core = x.core := by
  cases x <;> rfl

theorem Stream.core_subscribe (i : StreamId) (k : Sink) (x : Stream) : (x.subscribe i k).1.core = x.core := by
  cases x with
  | cold => rfl
  | subject x => cases hc : x.isClosed <;> simp [Stream.subscribe, Subject.subscribe, hc, Stream.core]

theorem Observer.isDestroyed_of_core {x z : Observer} (h : x.core = z.core) : x.isDestroyed = z.isDestroyed := by
  have hstate : x.core.state = z.core.state := by rw [h]
  exact congrArg (fun st => decide (st = .destroyed)) hstate

/-- Sinks are in the order of their tokens. -/
theorem Subject.sinks_eq_of_mem_iff {x y : Subject} (h : ∀ e, e ∈ y.sinks ↔ e ∈ x.sinks) : y.sinks = x.sinks := by
  have hne : ∀ {a b : Nat × Sink}, a.1 < b.1 → a ≠ b := by
    rintro a _ hab rfl
    exact Nat.lt_irrefl _ hab
  have hperm : y.sinks.Perm x.sinks :=
    (List.perm_ext_iff_of_nodup (y.ascending.imp hne) (x.ascending.imp hne)).2 h
  exact hperm.eq_of_pairwise (fun _ _ _ _ hab hba => absurd hba (Nat.lt_asymm hab)) y.ascending x.ascending

namespace Session

variable {E : Effect → Prop} {e : Effect} {p q : Ghost × Session} {s t : Session} {i : StreamId} {k : Sink}
  {o : ObserverId} {x : Observer}

/-! ### Streams -/

/-- What a stream is apart from its sinks. -/
def coreOf (s : Session) (i : StreamId) : Option Stream := (s.store.streams.get? i).map Stream.core

theorem coreOf_close (s : Session) (c : Subscription) (i : StreamId) : (s.close c).coreOf i = s.coreOf i := by
  unfold coreOf
  rw [close_streams, Option.map_map]
  congr 1
  funext x
  simp only [Function.comp_apply, closedStream]
  split
  · split
    · exact Stream.core_unsubscribe ..
    · rfl
  · rfl

theorem core_subscribe (s : Store) (i j : StreamId) (k : Sink) :
    ((s.subscribe i k).1.streams.get? j).map Stream.core = (s.streams.get? j).map Stream.core := by
  rw [streams_subscribe, Option.map_map]
  congr 1
  funext x
  simp only [Function.comp_apply]
  split
  · exact Stream.core_subscribe ..
  · rfl

theorem coreOf_setStream_of_ne {j : StreamId} (h : j ≠ i) (s : Session) (x : Stream) :
    ({ s with store := s.store.setStream j x } : Session).coreOf i = s.coreOf i := by
  simp only [coreOf, Store.setStream, Table.get?_insert, if_neg h]

/-- A stream has to emit or to end to be another than before, but for its sinks. -/
theorem Move.coreOf (hm : Move e p q) (hi : i.number < p.2.store.fresh) (hemits : ∀ v, e ≠ .emits i v)
    (hends : ∀ d, e ≠ .ends i d) : q.2.coreOf i = p.2.coreOf i := by
  cases hm with
  | @opening g s y j =>
    have h := core_subscribe s.store j i (.observer ⟨s.store.fresh⟩)
    rw [Store.subscribe_eq] at h
    rw [Store.openObserver_eq]
    exact h
  | @subscribing g s j =>
    exact core_subscribe { s.store with fresh := s.store.fresh + 1 } j i (.handler ⟨s.store.fresh⟩)
  | destroying | erasing | releasing => exact coreOf_close ..
  | newStream =>
    simp only [Session.coreOf, Store.newStream, Table.get?_insert]
    rw [if_neg]
    rintro rfl
    exact Nat.lt_irrefl _ hi
  | emitting =>
    refine coreOf_setStream_of_ne ?_ _ _
    rintro rfl
    exact hemits _ rfl
  | ending =>
    refine coreOf_setStream_of_ne ?_ _ _
    rintro rfl
    exact hends _ rfl
  | _ => rfl

theorem Moves.coreOf (hm : Moves E p q) (hi : i.number < p.2.store.fresh) (hemits : ∀ v, ¬E (.emits i v))
    (hends : ∀ d, ¬E (.ends i d)) : q.2.coreOf i = p.2.coreOf i := by
  induction hm with
  | refl => rfl
  | tail hm hlast ih =>
    obtain ⟨e, he, hlast⟩ := hlast
    have hold := Nat.lt_of_lt_of_le hi (Moves.fresh_le hm)
    exact (hlast.coreOf hold (fun v hv => hemits v (hv ▸ he)) fun d hd => hends d (hd ▸ he)).trans ih

/-! ### Observers -/

/-- The observer was there before, and was the same but for its listeners, unless it has been destroyed since. -/
def StoodBy (s : Session) (o : ObserverId) (x : Observer) : Prop :=
  ∃ z, s.store.observers.get? o = some z ∧ (x.core = z.core ∨ z.isDestroyed = false ∧ x.isDestroyed = true)

theorem StoodBy.same (h : s.store.observers.get? o = some x) : s.StoodBy o x := ⟨x, h, .inl rfl⟩

/-- An observer has to be told of something to be another than before, but for its listeners, or to be destroyed. -/
theorem Move.observer_core (hm : Move e p q) (ho : o.number < p.2.store.fresh) (he : ∀ d, e ≠ .receives o d)
    (hx : q.2.store.observers.get? o = some x) : p.2.StoodBy o x := by
  cases hm with
  | opening =>
    rw [Store.openObserver_eq] at hx
    simp only [Table.get?_insert] at hx
    rw [if_neg] at hx
    · exact .same hx
    · rintro rfl
      exact Nat.lt_irrefl _ ho
  | destroying h hlive =>
    simp only [close_observers, Store.setObserver, Table.get?_insert] at hx
    split at hx
    next hop =>
      subst hop
      obtain rfl := Option.some.inj hx
      exact ⟨_, h, .inr ⟨hlive, rfl⟩⟩
    · exact .same hx
  | erasing =>
    simp only [close_observers, Table.get?_erase] at hx
    split at hx
    · cases hx
    · exact .same hx
  | releasing =>
    rw [close_observers] at hx
    exact .same hx
  | subscribing =>
    rw [Store.subscribe_eq] at hx
    exact .same hx
  | listening h | hearing h =>
    simp only [Store.setObserver, Table.get?_insert] at hx
    split at hx
    next hop =>
      subst hop
      obtain rfl := Option.some.inj hx
      exact ⟨_, h, .inl rfl⟩
    · exact .same hx
  | receiving =>
    simp only [Store.setObserver, Table.get?_insert] at hx
    split at hx
    next hop => exact absurd (by rw [hop]) (he _)
    · exact .same hx
  | _ => exact .same hx

/-- Once destroyed, an observer does not change. -/
theorem Moves.observer_core (hm : Moves E p q) (ho : o.number < p.2.store.fresh) (hE : ∀ d, ¬E (.receives o d))
    (hx : q.2.store.observers.get? o = some x) : p.2.StoodBy o x := by
  induction hm generalizing x with
  | refl => exact .same hx
  | tail hm hlast ih =>
    obtain ⟨e, he, hlast⟩ := hlast
    have hold := Nat.lt_of_lt_of_le ho (Moves.fresh_le hm)
    obtain ⟨y, hy, hcore⟩ := hlast.observer_core hold (fun d hd => hE d (hd ▸ he)) hx
    obtain ⟨z, hz, hcore'⟩ := ih hy
    refine ⟨z, hz, ?_⟩
    rcases hcore with hsame | ⟨hlive, hdead⟩ <;> rcases hcore' with hsame' | ⟨hlive', hdead'⟩
    · exact .inl (hsame.trans hsame')
    · exact .inr ⟨hlive', (Observer.isDestroyed_of_core hsame).trans hdead'⟩
    · exact .inr ⟨(Observer.isDestroyed_of_core hsame').symm.trans hlive, hdead⟩
    · exact .inr ⟨hlive', hdead⟩

/-! ### Rolls -/

/-- Whoever has a subscription to a subject is on its roll, unless the subject has ended. -/
def Enrolled (s : Session) : Prop :=
  ∀ ⦃k i n x⦄, s.subscriptionOf k = some (.subject i n) → s.rollOf i = some x → x.isClosed = false → (n, k) ∈ x.sinks

theorem Enrolled.rewires (hw : Wired s) (hr : Rewires s t) (h : Enrolled s) : Enrolled t := by
  intro k i n x' hk hx' hopen
  cases hr with
  | same hs hr => exact h (hs ▸ hk) (hr ▸ hx') hopen
  | @left l c d hl hd hs hr =>
    have hne : l ≠ k := by
      rintro rfl
      rw [hs, if_pos rfl] at hk
      cases (hd _ hk).1
    rw [hs, if_neg hne] at hk
    rw [hr] at hx'
    obtain ⟨x, hx, rfl⟩ := Option.map_eq_some_iff.1 hx'
    unfold Roll.without at hopen ⊢
    split
    next j m =>
      split
      next hj =>
        -- the token that is given back is another one
        subst hj
        have hnm : n ≠ m := by
          rintro rfl
          exact hne (hw.apart hl hk)
        exact List.mem_filter.2 ⟨h hk hx (by simpa using hopen), by simpa using hnm⟩
      next hj => exact h hk hx (by simpa [hj] using hopen)
    next hnot => exact h hk hx (by simpa using hopen)
  | @joined l j hl hf hs hr =>
    rw [hr] at hx'
    obtain ⟨x, hx, rfl⟩ := Option.map_eq_some_iff.1 hx'
    have hstill : x.isClosed = false := by
      rw [← hopen]
      unfold Roll.add
      split
      · split <;> rfl
      · rfl
    rw [hs] at hk
    split at hk
    next hlk =>
      subst hlk
      obtain ⟨rfl, y, hy, -, rfl⟩ := subscription_iff.1 (Option.some.inj hk)
      obtain rfl := Option.some.inj (hx.symm.trans hy)
      simp [Roll.add, hstill]
    · have hmem := h hk hx hstill
      split
      · rw [Roll.add, if_neg (by simp [hstill])]
        exact List.mem_append_left _ hmem
      · exact hmem
  | @ended j hs hr =>
    rw [hr] at hx'
    obtain ⟨x, hx, rfl⟩ := Option.map_eq_some_iff.1 hx'
    split at hopen
    · cases hopen
    next hij =>
      rw [if_neg hij]
      exact h (hs ▸ hk) hx hopen
  | @made j hj hf hs hr hx =>
    rw [hs] at hk
    have hji : j ≠ i := by
      rintro rfl
      exact Nat.lt_irrefl _ (hj ▸ (hw.issued hk).1)
    exact h hk (hr i hji ▸ hx') hopen

theorem Enrolled.moves (hm : Moves E p q) (hsound : Sound p.1.hand p.2) (hw : Wired p.2) (h : Enrolled p.2) :
    Enrolled q.2 := by
  induction hm with
  | refl => exact h
  | tail hm hlast ih =>
    obtain ⟨e, -, hlast⟩ := hlast
    have hwired := hw.moves hm hsound
    exact ih.rewires hwired (hlast.rewires hwired.released)

/-- Where the same sinks have the same subscriptions, a subject tells the same sinks. -/
theorem sinks_eq (hs : Wired s) (ht : Wired t) (hs' : Enrolled s) (ht' : Enrolled t)
    (hsub : t.subscriptionOf = s.subscriptionOf) (hcore : t.coreOf i = s.coreOf i) :
    (t.rollOf i).map Roll.sinks = (s.rollOf i).map Roll.sinks := by
  unfold Session.coreOf at hcore
  unfold rollOf
  cases hx : s.store.streams.get? i with
  | none =>
    rw [hx] at hcore
    rw [Option.map_eq_none_iff.1 hcore]
  | some x =>
    rw [hx, Option.map_some] at hcore
    obtain ⟨y, hy, hxy⟩ := Option.map_eq_some_iff.1 hcore
    rw [hy]
    cases x with
    | cold =>
      cases y with
      | cold => rfl
      | subject => cases hxy
    | subject x =>
      cases y with
      | cold => cases hxy
      | subject y =>
        obtain ⟨-, -, hterminal⟩ : y.latest = x.latest ∧ y.replays = x.replays ∧ y.terminal = x.terminal := by
          simpa [Stream.core] using hxy
        refine congrArg some ?_
        change y.sinks = x.sinks
        cases hclosed : x.isClosed with
        | true => rw [x.released hclosed, y.released (hterminal ▸ hclosed)]
        | false =>
          have hclosed' : y.isClosed = false := by rw [Subject.isClosed, hterminal]; exact hclosed
          refine Subject.sinks_eq_of_mem_iff ?_
          rintro ⟨n, k⟩
          refine ⟨fun he => ?_, fun he => ?_⟩
          · exact hs' (hsub ▸ ht.owned (rollOf_of_get? hy) he) (rollOf_of_get? hx) hclosed
          · exact ht' (hsub ▸ hs.owned (rollOf_of_get? hx) he) (rollOf_of_get? hy) hclosed'

end Session

end DataBinding
