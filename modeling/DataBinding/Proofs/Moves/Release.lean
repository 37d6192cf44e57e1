import DataBinding.Proofs.Moves

/-!
# Releasing is made of moves

Registrations are taken away, observers, bindings and records are let go, and names are given: each of these is a
sequence of silent moves.
-/

namespace DataBinding

namespace Session

variable {g : Ghost} {s : Session}

theorem Moves.destroy (o : ObserverId) : Moves Silent (g, s) (g, s.destroy o) := by
  unfold Session.destroy
  split
  · exact .refl
  next x hx =>
    split
    · exact .refl
    next hd => exact .silent (.destroying hx (by simpa using hd))

theorem Moves.letGoObserver (o : ObserverId) : Moves Silent (g, s) (g, s.letGoObserver o) := by
  unfold Session.letGoObserver
  split
  · exact .refl
  · split
    · exact .refl
    next x hx => exact .silent (.erasing hx)

theorem Moves.modifyListeners {o : ObserverId} (f : Listeners → Listeners)
    (hf : ∀ ls, ∀ e ∈ (f ls).entries, e ∈ ls.entries) :
    Moves Silent (g, s)
      (g, { s with store := { s.store with observers := s.store.observers.modify o fun x =>
        { x with listeners := f x.listeners } } }) := by
  unfold Table.modify
  split
  next x hx => exact .silent (.listening hx fun n b he => hf _ _ he)
  · exact .refl

theorem Moves.storeUnlisten {x : Source} (hx : Within g.hand (sharedInSource x)) (token : Nat) :
    Moves Silent (g, s) (g, { s with store := s.store.unlisten token x }) := by
  cases x with
  | property o n => exact .silent (.object (u := .unwatch n token) (hx (.object o) (by simp [sharedInSource])) nofun)
  | observer o => exact .modifyListeners _ fun ls e he => (List.mem_filter.1 he).1
  | collection c => exact .silent (.quiet (Nat.le_refl _))

theorem Moves.storeSweep {x : Source} (hx : Within g.hand (sharedInSource x))
    (alive : Listener → Bool) : Moves Silent (g, s) (g, { s with store := s.store.sweep alive x }) := by
  cases x with
  | property o n => exact .silent (.object (u := .sweep alive n) (hx (.object o) (by simp [sharedInSource])) nofun)
  | observer o => exact .modifyListeners _ fun ls e he => (List.mem_filter.1 he).1
  | collection c => exact .silent (.quiet (Nat.le_refl _))

/-- What a listener that comes to listen does. -/
def Hearing (l : Listener) (f : Effect) : Prop := Silent f ∨ ∃ b, l = .binding b ∧ f = .hears b

theorem Hearing.silent {r : RecorderId} {f : Effect} (h : Hearing (.recorder r) f) : Silent f :=
  h.resolve_right (by simp)

/-- A binding listens to observers that its system's registry has. -/
theorem Moves.storeListen {x : Source} (hx : Within g.hand (sharedInSource x)) (l : Listener)
    (hl : ∀ b o, l = .binding b → x = .observer o → ∃ z i, s.bindings.get? b = some z ∧
      s.systems.entryIn z.system i = some o) :
    Moves (Hearing l) (g, s) (g, { s with store := (s.store.listen l x).1 }) := by
  have hsilent : ∀ f, Silent f → Hearing l f := fun _ => .inl
  cases x with
  | property o n =>
    have hm := Move.object (s := s) (u := .watch n l) (hx (.object o) (by simp [sharedInSource])) nofun
    exact (Moves.silent hm).mono hsilent
  | observer o =>
    simp only [Store.listen]
    split
    next x hx =>
      cases l with
      | binding b =>
        obtain ⟨z, i, hz, hi⟩ := hl b o rfl rfl
        exact .of_move (.inr ⟨b, rfl, rfl⟩) (.hearing hx hz hi)
      | recorder r =>
        refine (Moves.silent (.listening hx fun n b he => ?_)).mono hsilent
        exact (List.mem_append.1 he).resolve_right (by simp)
    · exact .refl
  | collection c => exact (Moves.silent (.quiet (Nat.le_refl _))).mono hsilent

theorem Moves.unlisten {x : Source} (hx : Within g.hand (sharedInSource x)) (token : Nat) :
    Moves Silent (g, s) (g, s.unlisten x token) := by
  have hm := Moves.storeUnlisten (s := s) hx token
  unfold Session.unlisten
  dsimp only
  split
  · split
    · exact hm.trans (.destroy _)
    · exact hm
  · exact hm

theorem Moves.release {e : Observation} (he : Within g.hand (sharedInSource e.source)) :
    Moves Silent (g, s) (g, s.release e) := by
  have hm := Moves.unlisten (s := s) he e.token
  unfold Session.release
  dsimp only
  split
  · exact hm.trans (.letGoObserver _)
  · exact hm

theorem Moves.releaseAll {es : List Observation}
    (hes : ∀ e ∈ es, Within g.hand (sharedInSource e.source)) : Moves Silent (g, s) (g, s.releaseAll es) := by
  unfold Session.releaseAll
  induction es generalizing s with
  | nil => exact .refl
  | cons e es ih =>
    exact (Moves.release (hes e (by simp))).trans (ih fun d hd => hes d (List.mem_cons_of_mem _ hd))

theorem within_record {H : Shared → Prop} {r : Observations} :
    Within H (sharedInRecord r) ↔ ∀ e ∈ r.entries, Within H (sharedInSource e.source) := by
  simp only [sharedInRecord, Within.flatMap]

theorem within_binding {H : Shared → Prop} {x : Binding} :
    Within H (sharedInBinding x) ↔
      H (.object x.target) ∧ Within H (sharedIn x.value) ∧ Within H (sharedInRecord x.observations) ∧
        ∀ y, x.state = some y →
          Within H (sharedInScope y.scope) ∧ ∀ z, y.host = some z → Within H (sharedInScope z) := by
  unfold sharedInBinding
  have hcons : ∀ {xs : List Shared} {y : Shared}, Within H (y :: xs) ↔ H y ∧ Within H xs := by
    simp [Within, or_imp, forall_and]
  rw [List.cons_append, List.cons_append, hcons, Within.append, Within.append, and_assoc]
  refine and_congr_right fun _ => and_congr_right fun _ => and_congr_right fun _ => ?_
  cases x.state with
  | none => simp [Within]
  | some y => cases hz : y.host <;> simp [hz, Within, or_imp, forall_and]

theorem Moves.letGo (h : Sound g.hand s) (r : Ref) : Moves Silent (g, s) (g, s.letGo r) := by
  unfold Session.letGo
  split
  · exact .refl
  · split
    · exact .letGoObserver _
    · exact .silent (.quiet (Nat.le_refl _))
    · split
      · exact .refl
      next x hx =>
        have hw := within_record.1 (within_binding.1 (h.outside.bindings hx)).2.2.1
        have hm : Moves Silent (g, s) (g, { s with bindings := s.bindings.erase ⟨r.number⟩ }) := by
          have hold : ∀ b y, (s.bindings.erase ⟨r.number⟩).get? b = some y → s.bindings.get? b = some y := by
            intro b y hy
            rw [Table.get?_erase] at hy
            split at hy
            · cases hy
            · exact hy
          exact .silent (.bindings (fun b y hy => .inl (hold b y hy)) fun b y hy => ⟨y, hold b y hy, .refl y⟩)
        exact hm.trans (.releaseAll hw)
    · split
      · exact .refl
      next x hx =>
        have hw := within_record.1 (h.outside.records hx)
        have hm : Moves Silent (g, s) (g, { s with records := s.records.erase ⟨r.number⟩ }) := by
          refine .silent (.records fun b y hy => .inl ?_)
          rw [Table.get?_erase] at hy
          split at hy
          · cases hy
          · exact hy
        exact hm.trans (.releaseAll hw)
    · split
      · exact .refl
      next x hx => exact .silent (.releasing hx)
    all_goals exact .refl

theorem Moves.setName (h : Sound g.hand s) {name : String} {r : Ref}
    (hr : Within g.hand (s.sharedInName ⟨r.thing, name⟩ r.number)) : Moves Silent (g, s) (g, s.setName name r) := by
  have hm : Moves Silent (g, s) (g, { s with names := s.names.insert ⟨r.thing, name⟩ r.number }) := by
    refine .silent (.names fun k n hk => ?_)
    rw [Table.get?_insert] at hk
    split at hk
    next he =>
      obtain rfl : r.number = n := by simpa using hk
      exact .inr (he ▸ hr)
    · exact .inl hk
  unfold Session.setName
  dsimp only
  split
  · exact hm
  · exact hm.trans (.letGo (h.moves hm) _)

end Session

end DataBinding
