import DataBinding.Proofs.Turnover

/-!
# Letting go

When a hold on a thing is given up, the thing may go with all that it holds. An observer that goes, or is destroyed,
releases its subscription, once (`tends_destroy`, `tends_letGoObserver`). So whatever is let go, no observer is left
that nothing holds (`tends_releaseAll`, `tends_letGo`, `tends_setName`), and what a binding has read is held by its
record (`tends_observe`). Bindings and records of the host hold observers in the same way, so what becomes of those
that they cover is told of tables (`Shifts`).
-/

namespace DataBinding

namespace Observations

/-- A source that is read is covered from then on, with all that was covered. -/
theorem covers_observe (r : Observations) (st : Store) (l : Listener) (z z' : Source) :
    (r.observe st l z).2.covers z' = true ↔ r.covers z' = true ∨ z = z' := by
  unfold observe
  split
  next hz =>
    have hsame : (r.restamp z).covers z' = r.covers z' := by
      have hentry : (fun e : Observation => decide (e.source = z')) ∘
          (fun e => if e.source = z then { e with version := r.version } else e) = fun e => decide (e.source = z') := by
        funext e
        simp only [Function.comp_apply]
        split <;> rfl
      simp only [covers, restamp, List.any_map, hentry]
    rw [hsame]
    exact ⟨.inl, fun h => h.elim id fun he => he ▸ hz⟩
  · simp [covers, add]

end Observations

namespace Session

variable {os os' : List ObserverId} {s t : Session} {k : Sink} {o : ObserverId} {b : BindingId} {x : Binding}

/-! ### Where a subscription is released -/

theorem released_close (s : Session) (c : Subscription) : (s.close c).released = s.released ++ c.label?.toList := by
  cases c with
  | closed | subject => simp [close, released, Subscription.label?]
  | cold label => simp [close, note, released, Subscription.label?, LogEntry.released?]

theorem labelOf_close (s : Session) (c : Subscription) (i : StreamId) :
    (s.close c).store.labelOf i = s.store.labelOf i := by
  rw [Store.labelOf, close_streams, Store.labelOf]
  cases s.store.streams.get? i with
  | none => rfl
  | some x =>
    cases x <;> simp only [Option.map_some, Option.bind_some, closedStream] <;> split <;> try split <;> rfl
    all_goals rfl

theorem holding_close (s : Session) (c : Subscription) : Holding (s.close c) o ↔ Holding s o :=
  holding_congr (close_names ..) (close_pending ..) (close_bindings ..) (close_records ..)

/-- A sink releases its subscription. -/
theorem Turnover.left {c : Subscription} (hself : s.coldOf k = c.label?)
    (hcold : ∀ k', t.coldOf k' = if k = k' then none else s.coldOf k') (hfresh : t.store.fresh = s.store.fresh)
    (hnoted : t.released = s.released ++ c.label?.toList) (hlabels : ∀ i, t.store.labelOf i = s.store.labelOf i)
    (hsystems : t.systems = s.systems) : Turnover [] (c.label?.toList.map fun label => (k, label)) s t where
  fresh := Nat.le_of_eq hfresh.symm
  noted := by rw [hnoted, List.map_map, Function.comp_def, List.map_id']
  once := by cases c.label? <;> simp
  gone_iff {k' label} := by
    rw [hcold]
    by_cases hkk : k = k'
    · subst hkk
      cases hlabel : c.label? <;> simp [hself, hlabel, eq_comm]
    · cases c.label? <;> cases s.coldOf k' <;> simp [hkk, Ne.symm hkk]
  kept {k' label} hk' := by
    rw [hcold] at hk'
    split at hk'
    · cases hk'
    · exact .inl hk'
  made hk' := absurd hk' List.not_mem_nil
  alone hk' := absurd hk' List.not_mem_nil
  labels _ := hlabels _
  entries he := .inl (hsystems ▸ he)

/-- A sink that leaves has its subscription closed. -/
theorem tends_leave (k : Sink) (m : Table ObserverId Observer) (n : Table SinkId Handler) {c : Subscription}
    (hself : s.coldOf k = c.label?)
    (hcold : ∀ k', ({ s with store := { s.store with observers := m }, handlers := n } : Session).coldOf k' =
      if k = k' then none else s.coldOf k')
    (hpresent : ∀ p, Holding s p → (s.store.observers.get? p).isSome → (m.get? p).isSome)
    (hheld : ∀ p, (m.get? p).isSome → (s.store.observers.get? p).isSome ∧ (p ∈ os → p ∈ os'))
    (hreleased : Released s → Released { s with store := { s.store with observers := m }, handlers := n }) :
    Tends [] os os' s (({ s with store := { s.store with observers := m }, handlers := n } : Session).close c) := by
  let t : Session := { s with store := { s.store with observers := m }, handlers := n }
  intro h
  have hturn : Turnover [] _ s (t.close c) :=
    .left hself (fun k' => by rw [coldOf, subscriptionOf_close]; exact hcold k') (close_fresh ..) (released_close ..)
      (labelOf_close _ _) (close_systems ..)
  have hholding : ∀ p, Holding (t.close c) p ↔ Holding s p :=
    fun p => (holding_close ..).trans (holding_congr rfl rfl rfl rfl)
  refine ⟨⟨_, hturn⟩, h.turnover hturn (fun p hp => ?_) (fun p hp => ?_) ((hreleased h.released).close c)
    (fun p hp => ?_) (fun b hb => ?_) fun i hi => ?_⟩
  · rw [close_observers]
    exact hpresent p ((hholding p).1 hp) (h.present ((hholding p).1 hp))
  · rw [close_observers] at hp
    obtain ⟨hthere, hos⟩ := hheld p hp
    exact (h.held hthere).imp (hholding p).2 hos
  · rw [close_observers] at hp
    exact .inl (hheld p hp).1
  · rw [close_bindings] at hb
    exact .inl hb
  · rw [close_records] at hi
    exact .inl hi

theorem coldOf_observer {x : Observer} (hx : s.store.observers.get? o = some x) :
    s.coldOf (.observer o) = if x.isDestroyed then none else x.subscription.label? := by
  cases hd : x.isDestroyed <;> simp [coldOf, subscriptionOf, hx, hd]

theorem tends_destroy (o : ObserverId) : Tends [] os os s (s.destroy o) := by
  unfold destroy
  split
  · exact .refl
  next x hx =>
    split
    · exact .refl
    next hd =>
      have hget : ∀ p,
          ((s.store.observers.insert o { x with state := .destroyed, subscription := .closed }).get? p).isSome =
            (s.store.observers.get? p).isSome := by
        intro p
        rw [Table.get?_insert]
        split
        next hop => rw [← hop, hx, Option.isSome_some, Option.isSome_some]
        · rfl
      refine tends_leave (.observer o) _ s.handlers ?_ (fun k' => ?_) (fun p _ hp => hget p ▸ hp)
        (fun p hp => ⟨hget p ▸ hp, id⟩) fun h => h.setObserver fun _ => rfl
      · rw [coldOf_observer hx, if_neg hd]
      · cases k' with
        | handler k => rw [if_neg (by simp)]; rfl
        | observer p =>
          simp only [coldOf, subscriptionOf, Table.get?_insert, Sink.observer.injEq]
          split <;> rfl

/-- A stray is let go. -/
theorem tends_letGoObserver (o : ObserverId) : Tends [] (o :: os) os s (s.letGoObserver o) := by
  intro h
  unfold letGoObserver
  split
  next hheld =>
    refine ⟨⟨_, .refl⟩, { h with held := fun {p} hp => ?_ }⟩
    rcases h.held hp with hh | hos
    · exact .inl hh
    · rcases List.mem_cons.1 hos with rfl | hos
      · exact .inl (isHeld_iff.1 hheld)
      · exact .inr hos
  next hheld =>
    split
    next hx =>
      refine ⟨⟨_, .refl⟩, { h with held := fun {p} hp => (h.held hp).imp_right fun hos => ?_ }⟩
      rcases List.mem_cons.1 hos with rfl | hos
      · rw [hx] at hp
        cases hp
      · exact hos
    next x hx =>
      have hget : ∀ p, (s.store.observers.erase o).get? p = if o = p then none else s.store.observers.get? p :=
        fun p => Table.get?_erase ..
      refine tends_leave (.observer o) _ s.handlers ?_ (fun k' => ?_) (fun p hp hthere => ?_)
        (fun p hp => ?_) (fun hr p y hy => ?_) h
      · rw [coldOf_observer hx]
        split
        next hd => rw [h.released hx hd]; rfl
        · rfl
      · cases k' with
        | handler k => rw [if_neg (by simp)]; rfl
        | observer p =>
          simp only [coldOf, subscriptionOf, hget, Sink.observer.injEq]
          split <;> rfl
      · rw [hget, if_neg]
        · exact hthere
        · rintro rfl
          exact hheld (isHeld_iff.2 hp)
      · rw [hget] at hp
        split at hp
        · cases hp
        next hop => exact ⟨hp, fun hos => (List.mem_cons.1 hos).resolve_left (Ne.symm hop)⟩
      · rw [hget] at hy
        split at hy
        · cases hy
        · exact hr hy

/-- The host gives a sink up. -/
theorem tends_giveUp {k : SinkId} {x : Handler} (hx : s.handlers.get? k = some x) :
    Tends [] os os s
      ({ s with handlers := s.handlers.insert k { x with subscription := .closed } }.close x.subscription) := by
  refine tends_leave (.handler k) s.store.observers _ ?_ (fun k' => ?_) (fun _ _ => id) (fun p hp => ⟨hp, id⟩) id
  · simp [coldOf, subscriptionOf, hx]
  · change Option.bind
      (({ s with handlers := s.handlers.insert k { x with subscription := .closed } } : Session).subscriptionOf k')
      _ = _
    rw [subscriptionOf_setHandler]
    split <;> rfl

/-! ### Records -/

/-- The observer that is a source. -/
def observersOf : Source → List ObserverId
  | .observer o => [o]
  | .property .. | .collection _ => []

/-- The observers that entries of records are about. -/
def observersIn (es : List Observation) : List ObserverId := es.flatMap fun e => observersOf e.source

theorem mem_observersIn {es : List Observation} : o ∈ observersIn es ↔ ∃ e ∈ es, e.source = .observer o := by
  simp only [observersIn, List.mem_flatMap]
  refine exists_congr fun e => and_congr_right fun _ => ?_
  cases e.source <;> simp [observersOf, eq_comm]

theorem tends_unlisten (z : Source) (token : Nat) : Tends [] os os s (s.unlisten z token) := by
  have hun : Tends [] os os s { s with store := s.store.unlisten token z } := (undisturbed_unlisten s z token).tends
  unfold unlisten
  dsimp only
  split
  · split
    · exact hun.before (tends_destroy _)
    · exact hun
  · exact hun

theorem tends_release (e : Observation) : Tends [] (observersOf e.source ++ os) os s (s.release e) := by
  have hun : Tends [] (observersOf e.source ++ os) (observersOf e.source ++ os) s (s.unlisten e.source e.token) :=
    tends_unlisten e.source e.token
  unfold release
  dsimp only
  split
  next o ho =>
    rw [ho] at hun ⊢
    exact hun.before (tends_letGoObserver o)
  next hno =>
    have hnone : observersOf e.source = [] := by
      cases hz : e.source with
      | observer o => exact absurd hz (hno o)
      | property | collection => rfl
    rw [hnone] at hun
    rwa [hnone]

theorem tends_releaseAll (es : List Observation) : Tends [] (observersIn es ++ os) os s (s.releaseAll es) := by
  unfold releaseAll
  induction es generalizing s with
  | nil => exact .refl
  | cons e es ih =>
    have hone : Tends [] (observersIn (e :: es) ++ os) (observersIn es ++ os) s (s.release e) := by
      rw [observersIn, List.flatMap_cons, List.append_assoc]
      exact tends_release e
    exact hone.before ih

/-! ### Giving up holds -/

/-- Only who holds what is another: holds on observers that are there may be gained, and those on `os'` may be lost. -/
theorem tends_yield (hkeep : ∀ o, Holding t o → Holding s o ∨ (s.store.observers.get? o).isSome)
    (hgive : ∀ o, Holding s o → Holding t o ∨ o ∈ os') (hstore : t.store = s.store := by rfl)
    (hsystems : t.systems = s.systems := by rfl) (hhandlers : t.handlers = s.handlers := by rfl)
    (hlog : t.log = s.log := by rfl)
    (hbindings : ∀ b, (t.bindings.get? b).isSome → (s.bindings.get? b).isSome ∨ b.number < s.store.fresh := by
      exact fun _ => .inl)
    (hrecords : ∀ i, (t.records.get? i).isSome → (s.records.get? i).isSome ∨ i.number < s.store.fresh := by
      exact fun _ => .inl) :
    Tends [] os (os' ++ os) s t := by
  have hsub : t.subscriptionOf = s.subscriptionOf := by
    funext k
    cases k <;> simp only [subscriptionOf, hstore, hhandlers]
  have hcold : ∀ k, t.coldOf k = s.coldOf k := fun k => by rw [coldOf, hsub, coldOf]
  intro h
  have hturn : Turnover [] [] s t :=
    .same (Nat.le_of_eq (by rw [hstore])) (by rw [Session.released, hlog, Session.released]) hcold
      (fun _ => by rw [hstore]) fun he => hsystems ▸ he
  refine ⟨⟨_, hturn⟩, h.turnover hturn (fun o ho => ?_) (fun o ho => ?_) (fun o x hx => h.released (hstore ▸ hx))
    (fun o ho => .inl (hstore ▸ ho)) (hstore ▸ hbindings) (hstore ▸ hrecords)⟩
  · rw [hstore]
    exact (hkeep o ho).elim h.present id
  · rw [hstore] at ho
    rcases h.held ho with hh | hos
    · exact (hgive o hh).imp_right (List.mem_append_left _)
    · exact .inr (List.mem_append_right _ hos)

section

variable {k : Thing} {α : Type} {f : α → Observations} {P : ObserverId → Prop} {n : Nat} {m m' : Table (Id k) α}
  {l : Id k} {a c : α} {es : List Observation}

/-- From `m` to `m'`, observers come to be covered only if they are as `P` says, and cease to be so only if they are
among `os`. -/
structure Shifts (f : α → Observations) (P : ObserverId → Prop) (os : List ObserverId) (n : Nat)
    (m m' : Table (Id k) α) : Prop where
  gain {o : ObserverId} : IsCovered f m' o → IsCovered f m o ∨ P o
  lose {o : ObserverId} : IsCovered f m o → IsCovered f m' o ∨ o ∈ os
  there {l : Id k} : (m'.get? l).isSome → (m.get? l).isSome ∨ l.number < n

/-- Something in the table gets another record. -/
theorem Shifts.insert (h : m.get? l = some a)
    (hgain : ∀ o, (f c).covers (.observer o) = true → (f a).covers (.observer o) = true ∨ P o)
    (hlose : ∀ o, (f a).covers (.observer o) = true → (f c).covers (.observer o) = true ∨ o ∈ os) :
    Shifts f P os n m (m.insert l c) where
  gain {o} := by
    rintro ⟨j, d, hd, hcovers⟩
    rw [Table.get?_insert] at hd
    split at hd
    · obtain rfl := Option.some.inj hd
      exact (hgain o hcovers).imp_left fun hcovers => ⟨l, a, h, hcovers⟩
    · exact .inl ⟨j, d, hd, hcovers⟩
  lose {o} := by
    rintro ⟨j, d, hd, hcovers⟩
    by_cases hlj : l = j
    · subst hlj
      obtain rfl := Option.some.inj (h.symm.trans hd)
      exact (hlose o hcovers).imp_left fun hcovers => ⟨l, c, by rw [Table.get?_insert, if_pos rfl], hcovers⟩
    · exact .inl ⟨j, d, by rw [Table.get?_insert, if_neg hlj, hd], hcovers⟩
  there {j} hj := by
    rw [Table.get?_insert] at hj
    split at hj
    next hlj => exact .inl (hlj ▸ Option.isSome_of_eq_some h)
    · exact .inl hj

/-- Entries of a record are given up. -/
theorem Shifts.giveUp (h : m.get? l = some a) (hkeep : ∀ e ∈ (f c).entries, e ∈ (f a).entries)
    (hgive : ∀ e ∈ (f a).entries, e ∈ (f c).entries ∨ e ∈ es) : Shifts f P (observersIn es) n m (m.insert l c) := by
  refine .insert h (fun o hcovers => ?_) fun o hcovers => ?_
  · obtain ⟨e, he, hsource⟩ := Observations.covers_iff.1 hcovers
    exact .inl (Observations.covers_iff.2 ⟨e, hkeep e he, hsource⟩)
  · obtain ⟨e, he, hsource⟩ := Observations.covers_iff.1 hcovers
    rcases hgive e he with he | he
    · exact .inl (Observations.covers_iff.2 ⟨e, he, hsource⟩)
    · exact .inr (mem_observersIn.2 ⟨e, he, hsource⟩)

/-- A source is entered in a record. -/
theorem Shifts.enter (h : m.get? l = some a) {st : Store} {r : Listener} {z : Source}
    (hc : f c = ((f a).observe st r z).2) (hz : ∀ o, z = .observer o → P o) : Shifts f P [] n m (m.insert l c) := by
  have hcovers : ∀ o, (f c).covers (.observer o) = true ↔ (f a).covers (.observer o) = true ∨ z = .observer o :=
    fun o => hc ▸ Observations.covers_observe ..
  exact .insert h (fun o ho => ((hcovers o).1 ho).imp_right (hz o)) fun o ho => .inl ((hcovers o).2 (.inl ho))

/-- Something is taken out of the table with its record. -/
theorem Shifts.erase (h : m.get? l = some a) : Shifts f P (observersIn (f a).entries) n m (m.erase l) where
  gain {o} := by
    rintro ⟨j, d, hd, hcovers⟩
    rw [Table.get?_erase] at hd
    split at hd
    · cases hd
    · exact .inl ⟨j, d, hd, hcovers⟩
  lose {o} := by
    rintro ⟨j, d, hd, hcovers⟩
    by_cases hlj : l = j
    · subst hlj
      obtain rfl := Option.some.inj (h.symm.trans hd)
      exact .inr (mem_observersIn.2 (Observations.covers_iff.1 hcovers))
    · exact .inl ⟨j, d, by rw [Table.get?_erase, if_neg hlj, hd], hcovers⟩
  there {j} hj := by
    rw [Table.get?_erase] at hj
    split at hj
    · cases hj
    · exact .inl hj

/-- Something new is put into the table, and its record is empty. -/
theorem Shifts.add (h : m.get? l = none) (ha : (f a).entries = []) (hl : l.number < n) :
    Shifts f P [] n m (m.insert l a) where
  gain {o} := by
    rintro ⟨j, d, hd, hcovers⟩
    rw [Table.get?_insert] at hd
    split at hd
    · obtain rfl := Option.some.inj hd
      simp [Observations.covers, ha] at hcovers
    · exact .inl ⟨j, d, hd, hcovers⟩
  lose {o} := by
    rintro ⟨j, d, hd, hcovers⟩
    refine .inl ⟨j, d, ?_, hcovers⟩
    rw [Table.get?_insert, if_neg, hd]
    rintro rfl
    cases h.symm.trans hd
  there {j} hj := by
    rw [Table.get?_insert] at hj
    split at hj
    next hlj => exact .inr (hlj ▸ hl)
    · exact .inl hj

end

theorem tends_bindings {m : Table BindingId Binding}
    (h : Shifts Binding.observations (fun o => (s.store.observers.get? o).isSome) os' s.store.fresh s.bindings m) :
    Tends [] os (os' ++ os) s { s with bindings := m } :=
  tends_yield (fun _ ho => ho.rebound h.gain) (fun _ ho => ho.rebound h.lose) rfl rfl rfl rfl fun _ => h.there

theorem tends_records {m : Table RecordId Observations}
    (h : Shifts id (fun o => (s.store.observers.get? o).isSome) os' s.store.fresh s.records m) :
    Tends [] os (os' ++ os) s { s with records := m } :=
  tends_yield (fun _ ho => ho.rerecorded h.gain) (fun _ ho => ho.rerecorded h.lose) rfl rfl rfl rfl (fun _ => .inl)
    fun _ => h.there

theorem tends_modifyBinding {f : Binding → Binding} {es : List Observation} (hx : s.bindings.get? b = some x)
    (hkeep : ∀ e ∈ (f x).observations.entries, e ∈ x.observations.entries)
    (hgive : ∀ e ∈ x.observations.entries, e ∈ (f x).observations.entries ∨ e ∈ es) :
    Tends [] os (observersIn es ++ os) s (s.modifyBinding b f) := by
  have hinsert : s.modifyBinding b f = { s with bindings := s.bindings.insert b (f x) } := by
    simp only [modifyBinding, Table.modify, hx]
  rw [hinsert]
  exact tends_bindings (.giveUp hx hkeep hgive)

/-- What is fresh stays in a record, and the rest is stale. -/
theorem mem_fresh_or_stale {r : Observations} {e : Observation} (he : e ∈ r.entries) :
    e ∈ r.fresh.entries ∨ e ∈ r.stale := by
  by_cases hfresh : r.isFresh e = true
  · exact .inl (List.mem_filter.2 ⟨he, hfresh⟩)
  · exact .inr (List.mem_filter.2 ⟨he, by simpa using hfresh⟩)

theorem mem_of_mem_fresh {r : Observations} {e : Observation} (he : e ∈ r.fresh.entries) : e ∈ r.entries :=
  (List.mem_filter.1 he).1

theorem tends_clearStale (b : BindingId) : Tends [] os os s (s.clearStale b) := by
  unfold clearStale
  split
  · exact .refl
  next x hx =>
    have hlose : Tends [] os (observersIn x.observations.stale ++ os) s
        (s.modifyBinding b fun x => { x with observations := x.observations.fresh }) :=
      tends_modifyBinding hx (fun _ => mem_of_mem_fresh) fun _ => mem_fresh_or_stale
    exact hlose.before (tends_releaseAll _)

theorem tends_clearObservations (b : BindingId) : Tends [] os os s (s.clearObservations b) := by
  unfold clearObservations
  split
  · exact .refl
  next x hx =>
    have hlose : Tends [] os (observersIn x.observations.entries ++ os) s
        (s.modifyBinding b fun x => { x with observations := x.observations.cleared }) :=
      tends_modifyBinding hx (fun _ he => absurd he List.not_mem_nil) fun _ => .inr
    exact hlose.before (tends_releaseAll _)

theorem tends_unbind (b : BindingId) : Tends [] os os s (s.unbind b) := by
  have hstate : Undisturbed s (s.modifyBinding b fun x => { x with state := none }) :=
    undisturbed_modifyBinding s b fun _ _ _ => rfl
  unfold unbind
  split
  · exact .refl
  · split
    · exact hstate.tends.before (tends_clearObservations b)
    · exact .refl

/-! ### Names -/

/-- Those who may be strays after a hold on a thing was given up. -/
def straysOf (r : Ref) : List ObserverId := if r.thing = .observer then [⟨r.number⟩] else []

theorem mem_straysOf {r : Ref} : o ∈ straysOf r ↔ r = o.ref := by
  obtain ⟨k, n⟩ := r
  unfold straysOf
  by_cases hk : k = .observer
  · simp only [hk, if_true, List.mem_singleton, Id.ref, Ref.mk.injEq, true_and]
    exact ⟨fun h => h ▸ rfl, fun h => h ▸ rfl⟩
  · simp only [hk, if_false, List.not_mem_nil, Id.ref, Ref.mk.injEq, false_and]

/-- What nobody holds any more goes, with all that it holds. -/
theorem tends_letGo (r : Ref) : Tends [] (straysOf r ++ os) os s (s.letGo r) := by
  have hheld : s.isHeld r = true → Tends [] (straysOf r ++ os) os s s := by
    refine fun hr h => ⟨⟨_, .refl⟩, { h with held := fun {o} ho => ?_ }⟩
    rcases h.held ho with hh | hos
    · exact .inl hh
    · rcases List.mem_append.1 hos with hos | hos
      · exact .inl (isHeld_iff.1 (mem_straysOf.1 hos ▸ hr))
      · exact .inr hos
  have hother : r.thing ≠ .observer → straysOf r ++ os = os := fun hk => by simp [straysOf, hk]
  unfold letGo
  split
  next hr => exact hheld hr
  · split
    case h_1 hk =>
      have hone : straysOf r ++ os = ⟨r.number⟩ :: os := by simp [straysOf, hk]
      rw [hone]
      exact tends_letGoObserver _
    case h_3 hk =>
      rw [hother (by simp [hk])]
      split
      · exact .refl
      next x hx =>
        have hlose : Tends [] os (observersIn x.observations.entries ++ os) s
            { s with bindings := s.bindings.erase ⟨r.number⟩ } := tends_bindings (.erase hx)
        exact hlose.before (tends_releaseAll _)
    case h_4 hk =>
      rw [hother (by simp [hk])]
      split
      · exact .refl
      next x hx =>
        have hlose : Tends [] os (observersIn x.entries ++ os) s { s with records := s.records.erase ⟨r.number⟩ } :=
          tends_records (.erase hx)
        exact hlose.before (tends_releaseAll _)
    case h_5 hk =>
      rw [hother (by simp [hk])]
      split
      · exact .refl
      next x hx => exact tends_giveUp hx
    case h_2 hk =>
      rw [hother (by simp [hk])]
      exact Undisturbed.tends {}
    all_goals
      rw [hother (by simp [*])]
      exact .refl

/-- A name is given to a thing, which is there if it is an observer. -/
theorem tends_setName (name : String) {r : Ref} (hr : ∀ o : ObserverId, r = o.ref → (s.store.observers.get? o).isSome) :
    Tends [] os os s (s.setName name r) := by
  let t : Session := { s with names := s.names.insert ⟨r.thing, name⟩ r.number }
  have hget : ∀ h : Handle, t.names.get? h = if ⟨r.thing, name⟩ = h then some r.number else s.names.get? h :=
    fun h => Table.get?_insert ..
  have hgain : ∀ o, Holding t o → Holding s o ∨ (s.store.observers.get? o).isSome := by
    rintro o (@⟨n, hn⟩ | ht | hb | hi)
    · rw [hget] at hn
      split at hn
      next heq =>
        obtain ⟨hthing, -⟩ := Handle.mk.inj heq
        refine .inr (hr o ?_)
        obtain ⟨k, m⟩ := r
        obtain rfl : k = .observer := hthing
        obtain rfl : m = o.number := Option.some.inj hn
        rfl
      · exact .inl (.name hn)
    · exact .inl (.task ht)
    · exact .inl (.binding hb)
    · exact .inl (.record hi)
  have hlose : ∀ o, Holding s o → Holding t o ∨ s.names.get? ⟨r.thing, name⟩ = some o.number ∧ r.thing = .observer := by
    rintro o (@⟨n, hn⟩ | ht | hb | hi)
    · by_cases heq : (⟨r.thing, name⟩ : Handle) = ⟨.observer, n⟩
      · exact .inr ⟨heq ▸ hn, (Handle.mk.inj heq).1⟩
      · exact .inl (.name (by rw [hget, if_neg heq, hn]))
    · exact .inl (.task ht)
    · exact .inl (.binding hb)
    · exact .inl (.record hi)
  unfold setName
  dsimp only
  split
  next hnone =>
    have hyield : Tends [] os ([] ++ os) s t := by
      refine tends_yield hgain fun o ho => .inl ((hlose o ho).resolve_right ?_)
      rw [hnone]
      rintro ⟨hsome, -⟩
      cases hsome
    exact hyield
  next n hn =>
    have hyield : Tends [] os (straysOf ⟨r.thing, n⟩ ++ os) s t := by
      refine tends_yield hgain fun o ho => (hlose o ho).imp_right fun hlost => mem_straysOf.2 ?_
      rw [hlost.2, Option.some.inj (hn.symm.trans hlost.1)]
      rfl
    exact hyield.before (tends_letGo _)

theorem tends_setNameOf (name : String) {k : Thing} {n : Nat} (hk : k ≠ .observer) :
    Tends [] os os s (s.setName name ⟨k, n⟩) :=
  tends_setName name fun _ ho => absurd (congrArg Ref.thing ho) hk

/-- A name is taken from a thing. -/
theorem tends_drop (what : Thing) (name : String) {n : Nat} (hn : s.names.get? ⟨what, name⟩ = some n) :
    Tends [] os os s ({ s with names := s.names.erase ⟨what, name⟩ }.letGo ⟨what, n⟩) := by
  let t : Session := { s with names := s.names.erase ⟨what, name⟩ }
  have hget : ∀ h : Handle, t.names.get? h = if ⟨what, name⟩ = h then none else s.names.get? h :=
    fun h => Table.get?_erase ..
  have hyield : Tends [] os (straysOf ⟨what, n⟩ ++ os) s t := by
    refine tends_yield (fun o ho => .inl ?_) fun o ho => ?_
    · rcases ho with @⟨m, hm⟩ | ht | hb | hi
      · rw [hget] at hm
        split at hm
        · cases hm
        · exact .name hm
      · exact .task ht
      · exact .binding hb
      · exact .record hi
    · rcases ho with @⟨m, hm⟩ | ht | hb | hi
      · by_cases heq : (⟨what, name⟩ : Handle) = ⟨.observer, m⟩
        · refine .inr (mem_straysOf.2 ?_)
          obtain ⟨rfl, rfl⟩ := Handle.mk.inj heq
          rw [Option.some.inj (hn.symm.trans hm)]
          rfl
        · exact .inl (.name (by rw [hget, if_neg heq, hm]))
      · exact .inl (.task ht)
      · exact .inl (.binding hb)
      · exact .inl (.record hi)
  exact hyield.before (tends_letGo _)

/-! ### Tasks -/

/-- The work under way is another, and holds other things. -/
theorem tends_pending {ts : List Task} (hkeep : ∀ o : ObserverId, .keep o.ref ∈ ts →
      .keep o.ref ∈ s.pending ∨ (s.store.observers.get? o).isSome)
    (hgive : ∀ o : ObserverId, .keep o.ref ∈ s.pending → .keep o.ref ∈ ts ∨ o ∈ os') :
    Tends [] os (os' ++ os) s { s with pending := ts } := by
  refine tends_yield (fun o ho => ?_) fun o ho => ?_
  · rcases ho with hn | ht | hb | hi
    · exact .inl (.name hn)
    · exact (hkeep o ht).imp_left .task
    · exact .inl (.binding hb)
    · exact .inl (.record hi)
  · rcases ho with hn | ht | hb | hi
    · exact .inl (.name hn)
    · exact (hgive o ht).imp_left .task
    · exact .inl (.binding hb)
    · exact .inl (.record hi)

/-! ### What a binding comes to observe -/

/-- The observers that were read through. -/
def observersRead (reads : List Read) : List ObserverId := reads.flatMap fun r => observersOf (sourceOf r)

theorem mem_observersRead {reads : List Read} : o ∈ observersRead reads ↔ ∃ i, .stream i o ∈ reads := by
  simp only [observersRead, List.mem_flatMap]
  constructor
  · rintro ⟨r, hr, ho⟩
    cases r with
    | property p n => cases ho
    | stream i p =>
      obtain rfl := List.mem_singleton.1 ho
      exact ⟨i, hr⟩
  · rintro ⟨i, hi⟩
    exact ⟨_, hi, List.mem_singleton_self _⟩

/-- A binding enters one thing that it has read. -/
theorem tends_observeOne (hx : s.bindings.get? b = some x) {r : Read}
    (hr : ∀ o, sourceOf r = .observer o → (s.store.observers.get? o).isSome) :
    Tends [] os os s (s.observeOne b x r) := by
  let st := (x.observations.observe s.store (.binding b) (sourceOf r)).1
  have hlisten : Undisturbed s { s with store := st } := by
    unfold st Observations.observe
    split
    · exact .refl s
    · exact undisturbed_listen s (.binding b) (sourceOf r)
  have henter : Tends [] os ([] ++ os) { s with store := st } (s.observeOne b x r) :=
    tends_bindings (.enter hx rfl fun o ho => (hlisten.present o).trans (hr o ho))
  exact hlisten.tends.before henter

/-- A binding enters what it has read, and then holds it. -/
theorem tends_observe {reads : List Read} (hx : s.bindings.get? b = some x) (hreads : s.Readable reads) :
    Tends [] (observersRead reads ++ os) os s (s.observe b reads) := by
  have henter : ∀ {os}, Tends [] os os s (s.observe b reads) := by
    intro os
    induction reads generalizing s x with
    | nil => exact .refl
    | cons r reads ih =>
      have hget := get?_observeOne s b x r b
      rw [if_pos rfl] at hget
      rw [observe_cons hx]
      refine (tends_observeOne hx fun o ho => ?_).before (ih hget (hreads.observeOne b x))
      have hlive := hreads r (by simp)
      rw [ho] at hlive
      exact Store.isSome_of_isLive hlive
  obtain ⟨r, hr, hstamped, -⟩ := (observed_observe hreads hx).record
  intro h
  obtain ⟨hturn, hs⟩ := henter h
  refine ⟨hturn, { hs with held := fun {o} ho => (hs.held ho).elim .inl fun hos => ?_ }⟩
  rcases List.mem_append.1 hos with hread | hos
  · obtain ⟨i, hi⟩ := mem_observersRead.1 hread
    obtain ⟨e, he, hsource, -⟩ := hstamped _ hi
    exact .inl (.binding ⟨b, _, hr, Observations.covers_iff.2 ⟨e, he, hsource⟩⟩)
  · exact .inr hos

end Session

end DataBinding
