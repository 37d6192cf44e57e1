import Mathlib.Data.List.Nodup
import DataBinding.Proofs.Upkeep

/-!
# Nothing leaks and nothing is lost

Where bindings are the only listeners and nobody else handles observers, the records of the bound bindings tell all: who
is registered where, which subjects tell an observer, and how many observers a registry has (`Reconciled`). It is so at
every point of every run (`reconciled_play`).
-/

namespace DataBinding

namespace Session

variable {s : Session} {b : BindingId} {o : ObserverId} {l : Listener} {n : Nat}

/-- After the run, some bound binding observes the stream through the system's registry. -/
def Watched (as : List Act) (y : SystemId) (i : StreamId) (s : Session) : Prop :=
  ∃ b x o, s.bindings.get? b = some x ∧ x.isBound = true ∧ Opened as y i o ∧ x.observations.covers (.observer o) = true

/-- Registrations, sinks and observers are those that the records of bound bindings ask for. -/
structure Reconciled (as : List Act) (s : Session) : Prop where
  /-- Nobody is registered twice with a source. -/
  once (z : Source) : (s.store.listeners z).audience.Nodup
  /-- The bound bindings that have the source in their records are registered with it, and nobody else is. -/
  registered {z : Source} {l : Listener} : l ∈ (s.store.listeners z).audience ↔
    ∃ b x, l = .binding b ∧ s.bindings.get? b = some x ∧ x.isBound = true ∧ x.observations.covers z = true
  /-- A subject that is held and has not ended tells one observer of a registry if a bound binding observes it. -/
  told {y : SystemId} {i : StreamId} {x : Subject} : s.isAlive i = true → s.store.streams.get? i = some (.subject x) →
    x.isClosed = false → Watched as y i s → ∃! e, e ∈ x.sinks ∧ OpenedSink as y i e.2
  /-- Any other subject tells none. -/
  untold {y : SystemId} {i : StreamId} {x : Subject} : s.store.streams.get? i = some (.subject x) →
    ¬(x.isClosed = false ∧ Watched as y i s) → ∀ e ∈ x.sinks, ¬OpenedSink as y i e.2
  /-- A registry has as many live observers as there are streams, held by something, that bound bindings observe. -/
  size {y : SystemId} {z : System} : s.systems.get? y = some z →
    ∃ is : List StreamId, is.Nodup ∧ (∀ i, i ∈ is ↔ s.isAlive i = true ∧ Watched as y i s) ∧
      z.registry.size s.isAlive s.store = is.length
  /-- Where nothing is bound, there is nothing left of any of these. -/
  unbound : (∀ b x, s.bindings.get? b = some x → x.isBound = false) →
    (∀ z, (s.store.listeners z).size = 0) ∧
      (∀ y i x, s.store.streams.get? i = some (.subject x) → ∀ e ∈ x.sinks, ¬OpenedSink as y i e.2) ∧
        ∀ y z, s.systems.get? y = some z → z.registry.size s.isAlive s.store = 0

/-! ### Listeners -/

theorem Owes.mem_entries {P : Prop} {z : Source} (h : Owes P b [] [] s) :
    (n, l) ∈ (s.store.listeners z).entries ↔ ∃ c, l = .binding c ∧ s.Records c z n := by
  rw [h.registered]
  simp

theorem Records.token {m : Nat} {z : Source} (h : s.Records b z n) (h' : s.Records b z m) : n = m := by
  obtain ⟨x, d, hx, hd, hsource, rfl⟩ := h
  obtain ⟨x', e, hx', he, hsource', rfl⟩ := h'
  obtain rfl := Option.some.inj (hx.symm.trans hx')
  obtain rfl := x.observations.eq_of_source hd he (hsource.trans hsource'.symm)
  rfl

variable {alone : Bool}

/-- What is in a record is that of a bound binding. -/
theorem Balanced.exists_of_records (h : Balanced alone s) {z : Source} (hr : s.Records b z n) :
    ∃ x, s.bindings.get? b = some x ∧ x.isBound = true ∧ x.observations.covers z = true := by
  obtain ⟨x, e, hx, he, hsource, -⟩ := hr
  refine ⟨x, hx, ?_, Observations.covers_iff.2 ⟨e, he, hsource⟩⟩
  cases hbound : x.isBound with
  | true => rfl
  | false =>
    have hnil := h.idle hx hbound
    rw [hnil] at he
    cases he

theorem exists_records {x : Binding} {z : Source} (hx : s.bindings.get? b = some x)
    (hz : x.observations.covers z = true) : ∃ n, s.Records b z n := by
  obtain ⟨e, he, hsource⟩ := Observations.covers_iff.1 hz
  exact ⟨e.token, x, e, hx, he, hsource, rfl⟩

theorem Balanced.nodup_audience (h : Balanced alone s) (z : Source) : (s.store.listeners z).audience.Nodup := by
  have hentries : (s.store.listeners z).entries.Nodup := by
    refine (s.store.listeners z).ascending.imp ?_
    rintro p q hlt rfl
    exact Nat.lt_irrefl _ hlt
  refine List.Nodup.map_on ?_ hentries
  rintro ⟨n, l⟩ hn ⟨m, l'⟩ hm hl
  obtain ⟨c, rfl, hc⟩ := (h.owes ⟨0⟩).mem_entries.1 hn
  obtain ⟨c', hl', hc'⟩ := (h.owes ⟨0⟩).mem_entries.1 hm
  obtain rfl : l' = .binding c := hl.symm
  obtain rfl := Listener.binding.inj hl'
  rw [hc.token hc']

theorem Balanced.mem_audience (h : Balanced alone s) {z : Source} : l ∈ (s.store.listeners z).audience ↔
    ∃ b x, l = .binding b ∧ s.bindings.get? b = some x ∧ x.isBound = true ∧ x.observations.covers z = true := by
  constructor
  · intro hl
    obtain ⟨⟨n, l⟩, hn, rfl⟩ := List.mem_map.1 hl
    obtain ⟨c, rfl, hc⟩ := (h.owes ⟨0⟩).mem_entries.1 hn
    obtain ⟨x, hx, hbound, hcovers⟩ := h.exists_of_records hc
    exact ⟨c, x, rfl, hx, hbound, hcovers⟩
  · rintro ⟨c, x, rfl, hx, -, hcovers⟩
    obtain ⟨n, hn⟩ := exists_records hx hcovers
    exact List.mem_map.2 ⟨(n, .binding c), (h.owes ⟨0⟩).mem_entries.2 ⟨c, rfl, hn⟩, rfl⟩

/-! ### Observers -/

/-- An observer is live as long as a bound binding has it in its record. -/
theorem Balanced.isLive_iff (h : Balanced true s) : s.store.isLive o = true ↔
    ∃ b x, s.bindings.get? b = some x ∧ x.isBound = true ∧ x.observations.covers (.observer o) = true := by
  have hheard : s.store.isLive o = true ↔ (s.store.listeners (.observer o)).entries ≠ [] := by
    simpa using (h.owes ⟨0⟩).heard rfl o
  rw [hheard]
  constructor
  · intro hne
    obtain ⟨⟨n, l⟩, hn⟩ := List.exists_mem_of_ne_nil _ hne
    obtain ⟨c, -, hc⟩ := (h.owes ⟨0⟩).mem_entries.1 hn
    exact ⟨c, h.exists_of_records hc⟩
  · rintro ⟨c, x, hx, -, hcovers⟩
    obtain ⟨n, hn⟩ := exists_records hx hcovers
    exact List.ne_nil_of_mem ((h.owes ⟨0⟩).mem_entries.2 ⟨c, rfl, hn⟩)

theorem nodup_keys {κ α : Type} [Ord κ] [Std.TransOrd κ] (t : Table κ α) : t.keys.Nodup := by
  refine List.pairwise_map.2 (t.ascending.imp ?_)
  intro a b hlt he
  have hself : compare a.1 b.1 = .eq := by
    rw [he]
    exact Std.ReflCmp.compare_self
  rw [hself] at hlt
  cases hlt

variable {as : List Act} {y : SystemId} {i : StreamId} {x : Subject} {opened : SystemId → StreamId → ObserverId → Prop}

theorem Balanced.watched (h : Balanced true s) (ho : Opened as y i o) (hlive : s.store.isLive o = true) :
    Watched as y i s := by
  obtain ⟨b, x, hx, hbound, hcovers⟩ := h.isLive_iff.1 hlive
  exact ⟨b, x, o, hx, hbound, ho, hcovers⟩

theorem Wired.isLive (h : Wired s) (hx : s.store.streams.get? i = some (.subject x)) (ht : (n, .observer o) ∈ x.sinks) :
    s.store.isLive o = true := by
  rw [← isSome_subscriptionOf, h.owned (rollOf_of_get? hx) ht]
  rfl

theorem Balanced.untold (h : Balanced true s) (hw : Wired s) (hx : s.store.streams.get? i = some (.subject x))
    (hnot : ¬(x.isClosed = false ∧ Watched as y i s)) : ∀ e ∈ x.sinks, ¬OpenedSink as y i e.2 := by
  rintro ⟨t, k⟩ ht hk
  cases k with
  | handler k => exact hk
  | observer o =>
    refine hnot ⟨?_, h.watched hk (hw.isLive hx ht)⟩
    cases hc : x.isClosed with
    | false => rfl
    | true =>
      -- a subject that has ended tells nobody
      rw [x.released hc] at ht
      cases ht

theorem Balanced.told (h : Balanced true s) (hk : Kept (s.atRest opened) s)
    (hopened : ∀ {y i o}, Opened as y i o → opened y i o) (hi : s.isAlive i = true)
    (hx : s.store.streams.get? i = some (.subject x)) (hopen : x.isClosed = false) (hwatched : Watched as y i s) :
    ∃! e, e ∈ x.sinks ∧ OpenedSink as y i e.2 := by
  obtain ⟨b, z, o, hz, hbound, ho, hcovers⟩ := hwatched
  have hlive := h.isLive_iff.2 ⟨b, z, hz, hbound, hcovers⟩
  obtain ⟨t, ht⟩ := (hk.placed (hopened ho)).told hlive (rollOf_of_get? hx) hopen
  refine ⟨(t, .observer o), ⟨ht, ho⟩, ?_⟩
  rintro ⟨u, k⟩ ⟨hu, hk'⟩
  cases k with
  | handler k => exact hk'.elim
  | observer p =>
    -- the registry has one live observer of the stream, and it is subscribed once
    have hentry := hk.current (hopened ho) hlive (isAlive_iff.1 hi)
    have hentry' := hk.current (hopened hk') (hk.wired.isLive hx hu) (isAlive_iff.1 hi)
    obtain rfl : p = o := Option.some.inj (hentry'.symm.trans hentry)
    have hsame := (hk.wired.owned (rollOf_of_get? hx) hu).symm.trans (hk.wired.owned (rollOf_of_get? hx) ht)
    obtain ⟨-, rfl⟩ := Subscription.subject.inj (Option.some.inj hsame)
    rfl

theorem Balanced.exists_size (h : Balanced true s) (hk : Kept (s.atRest opened) s)
    (hopened : ∀ {y i o}, Opened as y i o → opened y i o)
    (hnow : ∀ {y i o}, s.systems.entryIn y i = some o → Opened as y i o) {z : System} (hz : s.systems.get? y = some z) :
    ∃ is : List StreamId, is.Nodup ∧ (∀ i, i ∈ is ↔ s.isAlive i = true ∧ Watched as y i s) ∧
      z.registry.size s.isAlive s.store = is.length := by
  refine ⟨(z.registry.liveEntries s.isAlive s.store).keys, nodup_keys _, fun i => ?_, ?_⟩
  · rw [Table.mem_keys, Registry.liveEntries, Table.get?_filter, Option.isSome_iff_exists]
    constructor
    · rintro ⟨o, ho⟩
      obtain ⟨ho, hboth⟩ := Option.filter_eq_some_iff.1 ho
      obtain ⟨hlive, hi⟩ := Bool.and_eq_true_iff.1 hboth
      refine ⟨hi, h.watched (hnow ?_) hlive⟩
      rw [entryIn_of_get? hz, ho]
    · rintro ⟨hi, b, x, o, hx, hbound, ho, hcovers⟩
      have hlive := h.isLive_iff.2 ⟨b, x, hx, hbound, hcovers⟩
      have hentry := hk.current (hopened ho) hlive (isAlive_iff.1 hi)
      rw [entryIn_of_get? hz] at hentry
      exact ⟨o, Option.filter_eq_some_iff.2 ⟨hentry, by simp [Registry.isLiveEntry, hlive, hi]⟩⟩
  · simp only [Registry.size, Table.size, Table.keys, List.length_map]

/-- At every point of a run in which bindings are the only listeners and nobody else handles observers, their records
account for all registrations, for the sinks of all subjects and for the observers of all registries. -/
theorem reconciled_play (as : List Act) (has : ∀ a ∈ as, a.defers true = true) : Reconciled as (initial.play as) := by
  have h : Balanced true (initial.play as) := (inOrder_initial.play has).balanced
  obtain ⟨opened, hk, hopened⟩ := exists_kept as
  have hnow : ∀ {y i o}, (initial.play as).systems.entryIn y i = some o → Opened as y i o :=
    fun ho => ⟨as, List.prefix_refl as, ho⟩
  constructor
  case once => exact h.nodup_audience
  case registered => exact h.mem_audience
  case told => exact h.told hk (hopened _ _ _)
  case untold => exact h.untold hk.wired
  case size => exact h.exists_size hk (hopened _ _ _) hnow
  case unbound =>
    intro hunbound
    -- a stream is watched only through a bound binding, so all counts come to nothing
    have hnot : ∀ {y i}, ¬Watched as y i (initial.play as) := by
      rintro y i ⟨b, x, o, hx, hbound, -⟩
      rw [hunbound b x hx] at hbound
      cases hbound
    refine ⟨fun z => ?_, fun y i x hx => h.untold hk.wired hx fun hw => hnot hw.2, fun y z hz => ?_⟩
    · have hnil : ((initial.play as).store.listeners z).audience = [] := by
        refine List.eq_nil_iff_forall_not_mem.2 fun l hl => ?_
        obtain ⟨b, x, -, hx, hbound, -⟩ := h.mem_audience.1 hl
        rw [hunbound b x hx] at hbound
        cases hbound
      simpa [Listeners.audience, Listeners.size] using hnil
    · obtain ⟨is, -, his, hlength⟩ := h.exists_size hk (hopened _ _ _) hnow hz
      have hnil : is = [] := List.eq_nil_iff_forall_not_mem.2 fun i hi => hnot ((his i).1 hi).2
      rw [hlength, hnil]
      rfl

/-- It is so of two bindings that share a subject, while the first of them has evaluated again and the second has
not. -/
theorem reconciled_play_shared :
    let as : List Act := [.command (.makeSubject "s" (some (.int 1))),
      .command (.makeObject "model" [("a$", .stream "s"), ("n", .int 2)]), .command (.makeObject "target" []),
      .command (.makeScope "scope" "model" none none),
      .command (.makeBinding "b" "main" (.ok (.streamScope "a$" 0 false)) "target" "x" {}),
      .command (.makeBinding "c" "main" (.ok (.binary .add (.streamScope "a$" 0 false) (.scope "n" 0 false))) "target" "y"
        {}),
      .command (.bind "b" "scope" none), .step, .step, .command (.bind "c" "scope" none), .step, .step,
      .command (.next "s" (.int 3)), .step, .step]
    (∀ a ∈ as, a.defers true = true) ∧ ((initial.play as).store.listeners (.observer ⟨8⟩)).size = 2 ∧
      Reconciled as (initial.play as) := by
  intro as
  have has : ∀ a ∈ as, a.defers true = true := by decide
  exact ⟨has, by decide +kernel, reconciled_play as has⟩

end Session

end DataBinding
