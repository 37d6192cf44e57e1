import DataBinding.Proofs.OneObserver
import DataBinding.Proofs.Twins.Runs
import DataBinding.Session.Snapshot

/-!
# The threshold of a registry is invisible

When a registry sweeps is for its threshold to say. Whatever the thresholds of the registries of two sessions are, the
same run leads both to the same: everything that has a name looks the same, every command is answered the same but those
that tell how many entries a registry has, and each registry goes on to hand out the same observers
(`indistinguishable_withThreshold`).
-/

namespace DataBinding

theorem Table.modify_insert {κ α : Type} [Ord κ] [DecidableEq κ] [Std.TransOrd κ] [Std.LawfulEqOrd κ] (t : Table κ α)
    (k : κ) (a : α) (f : α → α) : (t.insert k a).modify k f = t.insert k (f a) := by
  apply ext_get?
  intro l
  simp only [get?_modify, get?_insert, if_true, Option.map_some]
  split <;> rfl

/-- Nobody who asks for observers, or for how many there are, can tell the registries apart. -/
structure Registry.SameAnswers (alive : StreamId → Bool) (s : Store) (r r' : Registry) : Prop where
  opened : r'.opened = r.opened
  size : r'.size alive s = r.size alive s
  get? {i : StreamId} : alive i = true → r'.get? s i = r.get? s i
  /-- The observer that is handed out is the same, and so is whether it is opened. -/
  observerFor {i : StreamId} : alive i = true →
    (r'.observerFor alive s i).2.2 = (r.observerFor alive s i).2.2 ∧
      (r'.observerFor alive s i).1 = (r.observerFor alive s i).1

/-- The system where its registry sweeps from another number of entries on. -/
def System.withThreshold (z : System) (n : Nat) : System where
  config := { z.config with pruneThreshold := n }
  registry := { z.registry with threshold := n }
  converters := z.converters

theorem System.Alike.withThreshold {H : StreamId → Prop} {s : Store} {z z' : System} (h : z.Alike H s z') (n : Nat) :
    z.Alike H s (z'.withThreshold n) where
  marker := h.marker
  leafOnly := h.leafOnly
  converters := h.converters
  registry := { opened := h.registry.opened, get? := h.registry.get?, old := h.registry.old }

namespace Session

variable {s t : Session} {y : SystemId} {ρ : Reply → Reply} {X : Table SystemId System}

/-- The session where a system's registry sweeps from another number of entries on. -/
def withThreshold (s : Session) (y : SystemId) (n : Nat) : Session :=
  { s with systems := s.systems.modify y fun z => z.withThreshold n }

theorem setName_withThreshold (s : Session) (y : SystemId) (n : Nat) (name : String) (r : Ref) :
    (s.withThreshold y n).setName name r = (s.setName name r).withThreshold y n := by
  have hsystems : (s.setName name r).systems = s.systems :=
    systems_of_recast (f := fun u => u.setName name r) (fun _ _ _ => recast_setName name r) s
  unfold withThreshold
  rw [hsystems, ← recast_id, recast_setName, recast_id]

/-- A system that is made with another threshold is otherwise the same. -/
theorem execute_makeSystem_withThreshold (s : Session) (name : String) {c : Config} (hc : c.validate = .ok ()) {n : Nat}
    (hn : 0 < n) :
    (s.execute (.makeSystem name { c with pruneThreshold := n })).session =
      (s.execute (.makeSystem name c)).session.withThreshold ⟨s.store.fresh⟩ n := by
  have hn : n ≠ 0 := by omega
  have hvalid : ({ c with pruneThreshold := n } : Config).validate = .ok () := by
    unfold Config.validate at hc ⊢
    split at hc
    · cases hc
    next hmarker => simp [hmarker, hn]
  have hmade (c : Config) (hc : c.validate = .ok ()) : (s.execute (.makeSystem name c)).session =
      ({ s.fresh.1 with systems := s.systems.insert ⟨s.store.fresh⟩ (System.ofConfig c) } : Session).setName name
        ⟨.system, s.store.fresh⟩ := by
    simp only [execute, answer?, answerMakeSystem, hc, Option.getD_some]
    rfl
  rw [hmade _ hvalid, hmade c hc, ← setName_withThreshold]
  unfold withThreshold
  rw [Table.modify_insert]
  rfl

/-! ### Twins with other thresholds -/

theorem get?_withThreshold (s : Session) (y x : SystemId) (n : Nat) :
    (s.withThreshold y n).systems.get? x =
      (s.systems.get? x).map fun z => if y = x then z.withThreshold n else z := by
  unfold withThreshold
  rw [Table.get?_modify]
  split
  next h => rw [h]
  · simp

theorem Sound.withThreshold {H : Shared → Prop} (h : Sound H s) (y : SystemId) (n : Nat) :
    Sound H (s.withThreshold y n) := by
  have houtside : Within H s.heldFromOutside := outside_iff.1 h.outside
  refine h.frame (outside_iff.2 houtside) rfl (fun _ => rfl) (Nat.le_refl _) (fun x hx => ?_) fun x m c hc => ?_
  · rw [get?_withThreshold, Option.isSome_map] at hx
    exact h.systemsOld hx
  · refine h.tame (y := x) (n := m) ?_
    rw [← hc]
    unfold Table.converterIn
    rw [get?_withThreshold]
    cases s.systems.get? x with
    | none => rfl
    | some z =>
      simp only [Option.map_some]
      split <;> rfl

theorem Twins.withThreshold {H : Shared → Prop} (h : Twins H s t) (y : SystemId) (n : Nat) :
    Twins H s (t.withThreshold y n) where
  rest := h.rest
  systems x := by
    rw [get?_withThreshold]
    cases hz : s.systems.get? x with
    | none =>
      rw [h.get?_system_none hz]
      exact .none
    | some z =>
      obtain ⟨z', hz', halike⟩ := h.get?_system hz
      rw [hz', Option.map_some]
      split
      · exact .some (halike.withThreshold n)
      · exact .some halike

/-- A session is a twin of itself. -/
theorem twins_self (as : List Act) : Twins (· ∈ (initial.play as).held) (initial.play as) (initial.play as) where
  rest := rfl
  systems y := by
    obtain ⟨opened, hkept, -⟩ := exists_kept as
    cases hz : (initial.play as).systems.get? y with
    | none => exact .none
    | some z =>
      refine .some ⟨rfl, rfl, rfl, Registry.alike_of_entries rfl rfl fun i o he => ?_⟩
      rw [← entryIn_of_get? hz] at he
      exact hkept.old (hkept.entered he)

/-! ### What can be seen -/

theorem appearance?_recast (asked : List String) {what : Thing} (hwhat : what ≠ .system) (n : Nat) :
    (s.recast ρ X).appearance? asked what n = s.appearance? asked what n := by
  cases what with
  | system => exact absurd rfl hwhat
  | _ => rfl

theorem sameAnswers_of_alike {z z' : System} (hs : Sound (· ∈ s.held) s)
    (h : z.Alike (fun i => .stream i ∈ s.held) s.store z') :
    z.registry.SameAnswers s.isAlive s.store z'.registry := by
  have halike := alike_alive (g := s.bare) h hs
  constructor
  case opened => exact halike.opened
  case size => exact halike.size_eq
  case get? => exact fun hi => halike.get? hi
  case observerFor =>
    intro i hi
    have hold : i.number < s.store.fresh := hs.old (hs.known (isAlive_iff.1 hi))
    obtain ⟨hstore, ho, -⟩ := halike.observerFor (fun _ => id) (fun _ => id) hi hold
    exact ⟨ho, hstore⟩

/-- The sessions have the same observers in the same states, look the same, hand out the same observers and reply the
same to whatever comes next, but for what replies tell of entries. -/
structure Indistinguishable (s t : Session) : Prop where
  /-- This includes the store, and with it all observers and all that holds them. -/
  rest : t.rest = s.rest
  snapshot (asked : List String) : t.snapshot asked = s.snapshot asked
  registries (y : SystemId) :
    Option.Rel (fun z z' => z.registry.SameAnswers s.isAlive s.store z'.registry) (s.systems.get? y) (t.systems.get? y)
  reply (c : Command) : c.tellsEntries = false → (t.execute c).reply = (s.execute c).reply
  blank (c : Command) : (t.execute c).reply.blank = (s.execute c).reply.blank

theorem Twins.snapshot (h : Twins (· ∈ s.held) s t) (hs : Sound (· ∈ s.held) s) (asked : List String) :
    t.snapshot asked = s.snapshot asked := by
  have happearance : ∀ what n, t.appearance? asked what n = s.appearance? asked what n := by
    intro what n
    by_cases hwhat : what = .system
    · subst hwhat
      unfold appearance?
      dsimp only
      rw [h.isAlive, h.store]
      cases hz : s.systems.get? ⟨n⟩ with
      | none => rw [h.get?_system_none hz]
      | some z =>
        obtain ⟨z', hz', halike⟩ := h.get?_system hz
        have hsame := sameAnswers_of_alike hs halike
        rw [hz', Option.map_some, Option.map_some, hsame.size, hsame.opened]
    · exact h.same (fun u => u.appearance? asked what n) fun u => appearance?_recast asked hwhat n
  unfold Session.snapshot
  rw [h.names]
  congr 1
  funext k n
  exact happearance k.thing n

theorem Twins.indistinguishable (h : Twins (· ∈ s.held) s t) (hs : Sound (· ∈ s.held) s) : s.Indistinguishable t where
  rest := h.rest
  snapshot := h.snapshot hs
  registries y := rel_imp (fun _ _ halike => sameAnswers_of_alike hs halike) (h.systems y)
  reply c := (Twins.execute (g := s.bare) h hs (fun _ => isAlive_iff.2) c).reply
  blank c := (Twins.execute (g := s.bare) h hs (fun _ => isAlive_iff.2) c).blank

/-- The threshold of a registry is invisible. -/
theorem indistinguishable_withThreshold (as bs : List Act) (y : SystemId) (m n : Nat) :
    (((initial.play as).withThreshold y m).play bs).Indistinguishable
      (((initial.play as).withThreshold y n).play bs) := by
  have hs : Sound (· ∈ (initial.play as).held) ((initial.play as).withThreshold y m) :=
    (sound_initial.play as).withThreshold y m
  -- Both are twins of the session as it was.
  have htwins : Twins (· ∈ (initial.play as).held) ((initial.play as).withThreshold y m)
      ((initial.play as).withThreshold y n) := ((twins_self as).withThreshold y m).symm.withThreshold y n
  exact (Twins.play htwins hs bs).indistinguishable (hs.play bs)

end Session

end DataBinding
