import Mathlib
import DataBinding.Value

/-!
# When values count as equal

Values are compared item by item, and floats in them as numbers. What this equality does not tell apart is the sign of
a zero, and what it tells apart from itself is what is not a number: two values count as equal exactly if they are the
same once every zero is taken for the positive one, and no item of them is not a number (`Value.equals_iff`).
-/

namespace DataBinding

namespace Value

/-! ### Floats -/

/-- The float itself, or the positive zero for either zero. -/
def positiveZero (x : Float) : Float := if x == 0.0 then 0.0 else x

/-- Floats compare as equal if they are the same number, or both of them zero. -/
theorem beq_iff_eq_or_zeros {x y : Float} :
    (x == y) = true ↔ x ≠ .nan ∧ y ≠ .nan ∧ (x = y ∨ x = 0.0 ∧ y = -0.0 ∨ x = -0.0 ∧ y = 0.0) :=
  Float.beq_iff_ne_nan_and_eq

theorem zeros_ne_nan : (0.0 : Float) ≠ .nan ∧ (-0.0 : Float) ≠ .nan := by decide +kernel

theorem beq_zero_iff {x : Float} : (x == 0.0) = true ↔ x = 0.0 ∨ x = -0.0 := by
  obtain ⟨hpositive, hnegative⟩ := zeros_ne_nan
  rw [beq_iff_eq_or_zeros]
  constructor
  · rintro ⟨-, -, h | ⟨h, -⟩ | ⟨h, -⟩⟩
    · exact .inl h
    · exact .inl h
    · exact .inr h
  · rintro (rfl | rfl)
    · exact ⟨hpositive, hpositive, .inl rfl⟩
    · exact ⟨hnegative, hpositive, .inr (.inr ⟨rfl, rfl⟩)⟩

/-- To be the same, or one `p` and the other `q`, is to be the same once `q` is taken for `p`. -/
theorem eq_or_swapped_iff {α : Type} [DecidableEq α] {p q n x y : α} (hp : p ≠ n) (hq : q ≠ n) :
    (x ≠ n ∧ y ≠ n ∧ (x = y ∨ x = p ∧ y = q ∨ x = q ∧ y = p)) ↔
      (if x = p ∨ x = q then p else x) = (if y = p ∨ y = q then p else y) ∧ x ≠ n := by
  grind

theorem beq_iff_positiveZero {x y : Float} :
    (x == y) = true ↔ positiveZero x = positiveZero y ∧ x.isNaN = false := by
  unfold positiveZero
  simp only [beq_zero_iff]
  rw [Float.isNaN_eq_decide_eq_nan, decide_eq_false_iff_not, beq_iff_eq_or_zeros]
  exact eq_or_swapped_iff zeros_ne_nan.1 zeros_ne_nan.2

/-! ### Items -/

mutual

/-- The value with the positive zero for every zero in it. -/
def unsigned : Value → Value
  | .float x => .float (positiveZero x)
  | .array vs => .array (unsignedAll vs)
  | v => v

def unsignedAll : List Value → List Value
  | [] => []
  | v :: vs => v.unsigned :: unsignedAll vs

end

theorem unsigned_eq_undefined_iff {v : Value} : v.unsigned = .undefined ↔ v = .undefined := by
  cases v <;> simp [unsigned]

mutual

/-- Whether an item of the value is a float that is not a number. -/
def hasNaN : Value → Bool
  | .float x => x.isNaN
  | .array vs => anyNaN vs
  | _ => false

def anyNaN : List Value → Bool
  | [] => false
  | v :: vs => v.hasNaN || anyNaN vs

end

mutual

/-- Values count as equal if they are the same up to the signs of zeros, and have nothing in them that is not a
number. -/
theorem equals_iff : ∀ {v w : Value}, v.equals w = true ↔ v.unsigned = w.unsigned ∧ v.hasNaN = false
  | .float x, w => by
    cases w with
    | float y => simpa [equals, unsigned, hasNaN] using beq_iff_positiveZero
    | _ => simp [equals, unsigned]
  | .array vs, w => by
    cases w with
    | array ws => simpa [equals, unsigned, hasNaN] using equalsAll_iff
    | _ => simp [equals, unsigned]
  | .undefined, w | .null, w | .bool _, w | .int _, w | .text _, w | .object _, w | .stream _, w => by
    cases w <;> simp [equals, unsigned, hasNaN]

theorem equalsAll_iff : ∀ {vs ws : List Value},
    equalsAll vs ws = true ↔ unsignedAll vs = unsignedAll ws ∧ anyNaN vs = false
  | [], ws => by cases ws <;> simp [equalsAll, unsignedAll, anyNaN]
  | v :: vs, ws => by
    cases ws with
    | nil => simp [equalsAll, unsignedAll]
    | cons w ws =>
      simp only [equalsAll, unsignedAll, anyNaN, Bool.and_eq_true, Bool.or_eq_false_iff, List.cons.injEq, equals_iff,
        equalsAll_iff]
      exact and_and_and_comm

end

end Value

end DataBinding
