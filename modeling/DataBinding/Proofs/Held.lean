import DataBinding.Session.Holding

/-!
# What is held

The objects and streams that a session holds are the most that hold each other up: each of them is held from outside or
by another one (`supported_held`), and every set of existing things of which this is true is held
(`mem_held_of_supported`). What nothing held refers to is therefore never held again, unless it is handed over.
-/

namespace DataBinding

namespace Session

/-- Something holds each of them: one of `outside`, or one of them. -/
def Supported (contents : Shared → List Shared) (outside : List Shared) (X : Shared → Prop) : Prop :=
  ∀ x, X x → x ∈ outside ∨ ∃ y, X y ∧ x ∈ contents y

section

variable {contents : Shared → List Shared} {outside : List Shared}

theorem mem_of_mem_heldAmong {n : Nat} {xs : List Shared} {x : Shared} (h : x ∈ heldAmong contents outside n xs) :
    x ∈ xs := by
  induction n generalizing xs with
  | zero => exact h
  | succ n ih =>
    unfold heldAmong at h
    dsimp only at h
    split at h
    · exact h
    · exact (List.mem_filter.1 (ih h)).1

/-- What holds itself up is never taken away. -/
theorem mem_heldAmong_of_supported {X : Shared → Prop} (hX : Supported contents outside X) {n : Nat} {xs : List Shared}
    (hxs : ∀ x, X x → x ∈ xs) {x : Shared} (hx : X x) : x ∈ heldAmong contents outside n xs := by
  induction n generalizing xs with
  | zero => exact hxs x hx
  | succ n ih =>
    unfold heldAmong
    dsimp only
    split
    · exact hxs x hx
    · apply ih
      intro y hy
      refine List.mem_filter.2 ⟨hxs y hy, ?_⟩
      rcases hX y hy with h | ⟨z, hz, h⟩
      · simp [h]
      · have : y ∈ xs.flatMap contents := List.mem_flatMap.2 ⟨z, hxs z hz, h⟩
        simp [this]

/-- What is left in the end holds itself up. -/
theorem supported_heldAmong {n : Nat} {xs : List Shared} (hn : xs.length ≤ n) :
    Supported contents outside (· ∈ heldAmong contents outside n xs) := by
  induction n generalizing xs with
  | zero =>
    intro x hx
    have : xs = [] := List.length_eq_zero_iff.1 (Nat.le_zero.1 hn)
    simp [heldAmong, this] at hx
  | succ n ih =>
    unfold heldAmong
    dsimp only
    split
    next h =>
      intro x hx
      have hall := List.filter_eq_self.1 (List.filter_sublist.eq_of_length h) x hx
      rcases Bool.or_eq_true_iff.1 hall with ho | hi
      · exact .inl (by simpa using ho)
      · obtain ⟨y, hy, hxy⟩ := List.mem_flatMap.1 (List.contains_iff_mem.1 hi)
        exact .inr ⟨y, hy, hxy⟩
    next h =>
      apply ih
      have := List.length_filter_le
        (fun x => outside.contains x || (xs.flatMap contents).contains x) xs
      omega

end

end Session

/-- Whether the store has the thing. -/
def Store.Knows (s : Store) : Session.Shared → Prop
  | .object o => (s.objects.get? o).isSome
  | .stream i => (s.streams.get? i).isSome

namespace Session

variable {s : Session}

theorem mem_everything {x : Shared} :
    x ∈ s.store.objects.keys.map Shared.object ++ s.store.streams.keys.map Shared.stream ↔ s.store.Knows x := by
  cases x <;> simp [Store.Knows, Table.mem_keys]

theorem supported_held (s : Session) : Supported (contents s.store) s.heldFromOutside (· ∈ s.held) :=
  supported_heldAmong (Nat.le_refl _)

theorem knows_of_mem_held {x : Shared} (h : x ∈ s.held) : s.store.Knows x :=
  mem_everything.1 (mem_of_mem_heldAmong h)

theorem mem_held_of_supported {X : Shared → Prop} (hk : ∀ x, X x → s.store.Knows x)
    (hX : Supported (contents s.store) s.heldFromOutside X) {x : Shared} (hx : X x) : x ∈ s.held :=
  mem_heldAmong_of_supported hX (fun y hy => mem_everything.2 (hk y hy)) hx

theorem mem_held_of_outside {x : Shared} (hk : s.store.Knows x) (h : x ∈ s.heldFromOutside) : x ∈ s.held := by
  refine mem_held_of_supported (X := fun y => y ∈ s.held ∨ y = x) ?_ ?_ (.inr rfl)
  · rintro y (hy | rfl)
    · exact knows_of_mem_held hy
    · exact hk
  · rintro y (hy | rfl)
    · rcases supported_held s y hy with ho | ⟨z, hz, hyz⟩
      · exact .inl ho
      · exact .inr ⟨z, .inl hz, hyz⟩
    · exact .inl h

theorem mem_held_of_contents {x y : Shared} (hk : s.store.Knows y) (hx : x ∈ s.held) (h : y ∈ contents s.store x) :
    y ∈ s.held := by
  refine mem_held_of_supported (X := fun z => z ∈ s.held ∨ z = y) ?_ ?_ (.inr rfl)
  · rintro z (hz | rfl)
    · exact knows_of_mem_held hz
    · exact hk
  · rintro z (hz | rfl)
    · rcases supported_held s z hz with ho | ⟨w, hw, hzw⟩
      · exact .inl ho
      · exact .inr ⟨w, .inl hw, hzw⟩
    · exact .inr ⟨x, .inl hx, h⟩

theorem isAlive_iff {i : StreamId} : s.isAlive i = true ↔ .stream i ∈ s.held := by
  unfold isAlive
  exact List.contains_iff_mem

end Session

end DataBinding
