import DataBinding.Proofs.Shutdown

/-!
# What a shutdown leaves

A shutdown destroys the observers that it finds in the registry of its system. Those are all that there are: whatever
was pruned, opened again or forgotten before, the registry has an entry for each of its observers that is live while its
stream is held (`Kept`). So a shutdown leaves none of them live, and on the roll of no subject (`cleared_of_shutdown`).
-/

namespace DataBinding

namespace Session

variable {as : List Act} {a : Act}

/-- After the run, nothing is left of what the system's registry opened. -/
structure Cleared (as : List Act) (y : SystemId) (s : Session) : Prop where
  /-- The registry has no entry. -/
  empty : ∃ z, s.systems.get? y = some z ∧ z.registry.entries = ∅
  /-- Each observer that it had for a stream that is still held is destroyed, unless it is gone. -/
  destroyed {i : StreamId} {o : ObserverId} {x : Observer} : Opened as y i o → s.isAlive i = true →
    s.store.observers.get? o = some x → x.isDestroyed = true
  /-- No subject tells one of these. -/
  untold {i j : StreamId} {o : ObserverId} {x : Subject} {t : Nat} : Opened as y i o → s.isAlive i = true →
    s.store.streams.get? j = some (.subject x) → (t, .observer o) ∉ x.sinks
  /-- Whatever observer a subject that is held tells, the registry of another system has it, and this one never did. -/
  others {i : StreamId} {x : Subject} {t : Nat} {o : ObserverId} : s.isAlive i = true →
    s.store.streams.get? i = some (.subject x) → (t, .observer o) ∈ x.sinks →
      (∀ j, ¬Opened as y j o) ∧ ∃ y', y' ≠ y ∧ s.systems.entryIn y' i = some o

/-- Whenever a shutdown is done, everything that the registry opened before is cleared away. -/
theorem cleared_of_shutdown {t : Session} {name : String} {y : SystemId} {z : System}
    (hc : (initial.play as).carriedOut? a = some (t, .shutdown name)) (hy : t.system? name = some (y, z)) :
    Cleared (as ++ [a]) y (initial.play (as ++ [a])) := by
  obtain ⟨opened, hkept, hopened⟩ := exists_kept (as ++ [a])
  have hplay : initial.play (as ++ [a]) = (initial.play as).act a := play_append ..
  have hentry : ∀ i, (initial.play (as ++ [a])).systems.entryIn y i = none := by
    intro i
    rw [hplay]
    exact entryIn_shutdown hc hy i
  have hdead : ∀ {i o}, Opened (as ++ [a]) y i o → (initial.play (as ++ [a])).isAlive i = true →
      (initial.play (as ++ [a])).store.isLive o = false := by
    intro i o ho hi
    by_contra hlive
    have := hkept.current (hopened y i o ho) (by simpa using hlive) (isAlive_iff.1 hi)
    rw [hentry i] at this
    cases this
  have htold : ∀ {j x t o}, (initial.play (as ++ [a])).store.streams.get? j = some (.subject x) →
      (t, .observer o) ∈ x.sinks → (initial.play (as ++ [a])).subscriptionOf (.observer o) = some (.subject j t) :=
    fun hx ht => hkept.wired.owned (rollOf_of_get? hx) ht
  have hlive : ∀ {j x t o}, (initial.play (as ++ [a])).store.streams.get? j = some (.subject x) →
      (t, .observer o) ∈ x.sinks → (initial.play (as ++ [a])).store.isLive o = true := by
    intro j x t o hx ht
    rw [← isSome_subscriptionOf, htold hx ht]
    rfl
  constructor
  case empty =>
    refine ⟨{ z with registry := { z.registry with entries := ∅ } }, ?_, rfl⟩
    rw [hplay, systems_shutdown hc hy, Table.get?_insert, if_pos rfl]
  case destroyed =>
    intro i o x ho hi hx
    have := hdead ho hi
    rw [Store.isLive, hx] at this
    simpa using this
  case untold =>
    intro i j o x t ho hi hx ht
    have := hlive hx ht
    rw [hdead ho hi] at this
    cases this
  case others =>
    intro i x t o hi hx ht
    obtain ⟨y', j, ho⟩ := hkept.accounted (hlive hx ht)
    obtain rfl := (hkept.placed ho).only (htold hx ht)
    have hentered := hkept.current ho (hlive hx ht) (isAlive_iff.1 hi)
    have hne : y' ≠ y := by
      rintro rfl
      rw [hentry i] at hentered
      cases hentered
    exact ⟨fun k hk => hne (hkept.once ho (hopened y k o hk)).1, y', hne, hentered⟩

/-- Two systems observe a subject, and one of them is shut down. -/
theorem cleared_of_shutdown_second :
    let as : List Act := [.command (.makeSubject "s" none), .command (.makeSystem "other" {}),
      .command (.observe "main" "s" (some "o")), .command (.observe "other" "s" (some "p"))]
    let a : Act := .command (.shutdown "main")
    Opened (as ++ [a]) ⟨0⟩ ⟨1⟩ ⟨3⟩ ∧ (initial.play (as ++ [a])).isAlive ⟨1⟩ = true ∧
      Cleared (as ++ [a]) ⟨0⟩ (initial.play (as ++ [a])) := by
  intro as a
  have hsystem : ((initial.play as).system? "main").map (·.1) = some ⟨0⟩ := by decide +kernel
  obtain ⟨⟨y, z⟩, hy, rfl⟩ := Option.map_eq_some_iff.1 hsystem
  have hopened : (initial.play as).systems.entryIn ⟨0⟩ ⟨1⟩ = some ⟨3⟩ := by decide +kernel
  exact ⟨⟨as, List.prefix_append .., hopened⟩, by decide +kernel, cleared_of_shutdown rfl hy⟩

end Session

end DataBinding
