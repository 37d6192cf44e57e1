import DataBinding.Proofs.IntegerArithmetic
import DataBinding.Proofs.Rounding

/-!
# Comparisons of integers

Integers are compared as the doubles nearest to them. `evaluate_comparison` says what that is in terms of the integers:
two with one nearest double count as equal, all others compare as they should. Arithmetic tells them apart all the same.
-/

namespace DataBinding

namespace BinaryOp

/-- The comparisons. -/
def comparisons : List BinaryOp := [.strictEq, .strictNotEq, .eq, .notEq, .lt, .gt, .le, .ge]

/-- What a comparison says of two numbers in that order. -/
def holds : BinaryOp → Ordering → Bool
  | .strictEq, o | .eq, o => o == .eq
  | .strictNotEq, o | .notEq, o => o != .eq
  | .lt, o => o == .lt
  | .gt, o => o == .gt
  | .le, o => o.isLE
  | .ge, o => o.isGE
  | _, _ => false

end BinaryOp

namespace Double

/-- Two integers with different nearest doubles are in the order of these. -/
theorem compare_nearestInt (z w : Int) :
    compare (nearestInt z) (nearestInt w) = if nearestInt z = nearestInt w then .eq else compare z w := by
  split
  next h => exact Int.compare_eq_eq.2 h
  next h =>
    obtain hlt | rfl | hlt := Int.lt_trichotomy z w
    · rw [Int.compare_eq_lt.2 hlt, Int.compare_eq_lt.2 (lt_of_le_of_ne (nearestInt_mono hlt.le) h)]
    · exact absurd rfl h
    · rw [Int.compare_eq_gt.2 hlt, Int.compare_eq_gt.2 (lt_of_le_of_ne (nearestInt_mono hlt.le) (Ne.symm h))]

/-- All words are in the range of doubles. -/
theorem denotes_floatOf (n : Int64) : Denotes (Value.floatOf n) (nearestInt n.toInt * 2 ^ scale) := by
  apply denotes_ofInt
  have hn := n.le_toInt
  have hn' := n.toInt_lt
  have hle : nearest n.toInt.natAbs ≤ 2 ^ 63 := nearest_mono (by omega : n.toInt.natAbs ≤ 2 ^ 63)
  have hexponent : 11 + scale ≤ top := by
    rw [scale_eq, top_eq]
    decide
  calc
    nearest n.toInt.natAbs * 2 ^ scale ≤ 2 ^ 63 * 2 ^ scale := Nat.mul_le_mul_right _ hle
    _ = 2 ^ 52 * 2 ^ (11 + scale) := by rw [← Nat.pow_add, ← Nat.pow_add, ← Nat.add_assoc]
    _ < 2 ^ 53 * 2 ^ top := mul_two_pow_lt (by decide) hexponent

end Double

namespace Operator

open Double

theorem binary_comparison {op : BinaryOp} (h : op ∈ BinaryOp.comparisons) (has : ObjectId → String → Bool)
    (a b : Int64) :
    binary has op (.int a) (.int b) = .bool (op.holds (compare (nearestInt a.toInt) (nearestInt b.toInt))) := by
  have hbeq := beq_of_denotes (denotes_floatOf a) (denotes_floatOf b)
  have hlt := lt_of_denotes (denotes_floatOf a) (denotes_floatOf b)
  have hgt := lt_of_denotes (denotes_floatOf b) (denotes_floatOf a)
  have hle := le_of_denotes (denotes_floatOf a) (denotes_floatOf b)
  have hge := le_of_denotes (denotes_floatOf b) (denotes_floatOf a)
  rw [compare_mul_two_pow] at hbeq hlt hgt hle hge
  rw [← Int.compare_swap] at hgt hge
  generalize compare (nearestInt a.toInt) (nearestInt b.toInt) = o at *
  simp only [BinaryOp.comparisons, List.mem_cons, List.not_mem_nil, or_false] at h
  obtain rfl | rfl | rfl | rfl | rfl | rfl | rfl | rfl := h
  · exact congrArg Value.bool hbeq
  · exact congrArg (fun x => Value.bool (!x)) hbeq
  · exact congrArg Value.bool hbeq
  · exact congrArg (fun x => Value.bool (!x)) hbeq
  · change Value.bool (decide (Value.floatOf a < Value.floatOf b)) = _
    rw [decide_eq_decide.2 hlt]
    cases o <;> rfl
  · change Value.bool (decide (Value.floatOf b < Value.floatOf a)) = _
    rw [decide_eq_decide.2 hgt]
    cases o <;> rfl
  · change Value.bool (decide (Value.floatOf a ≤ Value.floatOf b)) = _
    rw [decide_eq_decide.2 hle]
    cases o <;> rfl
  · change Value.bool (decide (Value.floatOf b ≤ Value.floatOf a)) = _
    rw [decide_eq_decide.2 hge]
    cases o <;> rfl

end Operator

namespace Expr

open Double

variable {ctx : EvalContext} {w : Watch} {l : Expr} {t t' : EvalState}

theorem run_comparison {op : BinaryOp} (h : op ∈ BinaryOp.comparisons) {a b : Value} {r : Expr} {t'' : EvalState}
    (hl : (l.evaluate ctx w).run t = (.ok a, t')) (hr : (r.evaluate ctx w).run t' = (.ok b, t'')) :
    ((binary op l r).evaluate ctx w).run t = (.ok (Operator.binary t''.store.hasProperty op a b), t'') := by
  refine run_binary ?_ ?_ hl hr
  · rintro rfl
    simp [BinaryOp.comparisons] at h
  · rintro rfl
    simp [BinaryOp.comparisons] at h

/-- All comparisons of two integers agree on how the integers compare: as equal if they have one nearest double, and
otherwise as they should. So they are right about all integers up to `2 ^ 53` either way. A difference that is an
integer is on the right side of zero for all integers, even where the comparisons see none. -/
theorem evaluate_comparison {a b : Int64} {r : Expr} {t'' : EvalState}
    (hl : (l.evaluate ctx w).run t = (.ok (.int a), t')) (hr : (r.evaluate ctx w).run t' = (.ok (.int b), t'')) :
    ∃ o : Ordering,
      (∀ op ∈ BinaryOp.comparisons, ((binary op l r).evaluate ctx w).run t = (.ok (.bool (op.holds o)), t'')) ∧
      o = (if nearestInt a.toInt = nearestInt b.toInt then .eq else compare a.toInt b.toInt) ∧
      (a.toInt.natAbs ≤ 2 ^ 53 → b.toInt.natAbs ≤ 2 ^ 53 → o = compare a.toInt b.toInt) ∧
      ∀ c, ((binary .sub l r).evaluate ctx w).run t = (.ok (.int c), t'') →
        compare c.toInt 0 = compare a.toInt b.toInt := by
  refine ⟨compare (nearestInt a.toInt) (nearestInt b.toInt), ?_, compare_nearestInt .., ?_, ?_⟩
  · intro op hop
    rw [← Operator.binary_comparison hop t''.store.hasProperty]
    exact run_comparison hop hl hr
  · intro ha hb
    rw [nearestInt_of_natAbs_le ha, nearestInt_of_natAbs_le hb]
  · intro c hc
    have hsub := run_binary (by decide : BinaryOp.sub ≠ .and) (by decide) hl hr
    rw [Operator.binary_of_mem_arithmetical (by decide)] at hsub
    have hv : Operator.arithmetic .sub (.int a) (.int b) = .int c :=
      Except.ok.inj (congrArg Prod.fst (hsub.symm.trans hc))
    have hdiff : c.toInt = a.toInt - b.toInt := (((Operator.exact_arithmetic (by decide) a b).int c).1 hv).1
    obtain hlt | heq | hgt := Int.lt_trichotomy a.toInt b.toInt
    · rw [Int.compare_eq_lt.2 hlt, Int.compare_eq_lt.2 (by omega)]
    · rw [Int.compare_eq_eq.2 heq, Int.compare_eq_eq.2 (by omega)]
    · rw [Int.compare_eq_gt.2 hgt, Int.compare_eq_gt.2 (by omega)]

/-- Two integers of 54 digits with different nearest doubles, the first of which is no double: the comparisons see which
is less. -/
theorem evaluate_comparison_literals :
    let ctx : EvalContext :=
      { flags := {}, scope := ⟨⟨1⟩, ⟨⟨0⟩, ⟨0⟩⟩, []⟩, host := none, converters := ∅, alive := fun _ => false }
    let t : EvalState := { store := {}, registry := { threshold := 0 } }
    let result (op : BinaryOp) :=
      ((binary op (literal (.int 9007199254740993)) (literal (.int 9007199254740994))).evaluate ctx .everything).run t
    result .lt = (.ok (.bool true), t) ∧ result .strictEq = (.ok (.bool false), t) ∧
      result .ge = (.ok (.bool false), t) := by
  intro ctx t result
  have hint (n : Int64) : ((literal (.int n)).evaluate ctx .everything).run t = (.ok (.int n), t) := rfl
  obtain ⟨o, hcompare, ho, -⟩ := evaluate_comparison (hint 9007199254740993) (hint 9007199254740994)
  obtain rfl : o = .lt := ho.trans (by decide)
  exact ⟨hcompare .lt (by decide), hcompare .strictEq (by decide), hcompare .ge (by decide)⟩

/-- The first integer that is no double counts as equal to the one before it, and not as greater, though their
difference is one. -/
theorem comparison_of_neighbours :
    let ctx : EvalContext :=
      { flags := {}, scope := ⟨⟨1⟩, ⟨⟨0⟩, ⟨0⟩⟩, []⟩, host := none, converters := ∅, alive := fun _ => false }
    let t : EvalState := { store := {}, registry := { threshold := 0 } }
    let a : Int64 := 9007199254740993
    let b : Int64 := 9007199254740992
    let result (op : BinaryOp) := ((binary op (literal (.int a)) (literal (.int b))).evaluate ctx .everything).run t
    compare a.toInt b.toInt = .gt ∧ result .sub = (.ok (.int 1), t) ∧
      (∀ op ∈ BinaryOp.comparisons, result op = (.ok (.bool (op.holds .eq)), t)) ∧
      result .strictEq ≠ (.ok (.bool (BinaryOp.strictEq.holds (compare a.toInt b.toInt))), t) := by
  intro ctx t a b result
  have hint (n : Int64) : ((literal (.int n)).evaluate ctx .everything).run t = (.ok (.int n), t) := rfl
  have hsame : compare (nearestInt a.toInt) (nearestInt b.toInt) = .eq := by decide
  have hresult : ∀ op ∈ BinaryOp.comparisons, result op = (.ok (.bool (op.holds .eq)), t) := by
    intro op hop
    rw [← hsame, ← Operator.binary_comparison hop t.store.hasProperty]
    exact run_comparison hop (hint a) (hint b)
  have hsub : result .sub = (.ok (.int 1), t) := by
    have hgives : BinaryOp.sub.Gives a.toInt b.toInt (1 : Int64).toInt := by
      change (1 : Int64).toInt = a.toInt - b.toInt
      decide
    have hone := ((Operator.exact_arithmetic (by decide) a b).int 1).2 ⟨hgives, by decide⟩
    rw [← hone, ← Operator.binary_of_mem_arithmetical (by decide) t.store.hasProperty]
    exact run_binary (by decide) (by decide) (hint a) (hint b)
  refine ⟨by decide, hsub, hresult, ?_⟩
  rw [hresult .strictEq (by decide)]
  intro h
  have hholds : BinaryOp.strictEq.holds .eq = BinaryOp.strictEq.holds (compare a.toInt b.toInt) :=
    Value.bool.inj (Except.ok.inj (congrArg Prod.fst h))
  revert hholds
  decide

end Expr

end DataBinding
