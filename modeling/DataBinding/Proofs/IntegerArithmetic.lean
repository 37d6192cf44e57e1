import DataBinding.Proofs.EvaluationRules
import Mathlib.Tactic.Linarith

/-!
# Arithmetic on integers

`BinaryOp.Gives` says which integer an arithmetical operation gives on two integers, without a word about their size:
`integral?_eq_some_iff` says that the operators find it whenever it fits in 64 bits, with one exception. A value is
`Exact` if it is the integer that is asked for, or a float when none that fits is; `evaluate_arithmetic` says so of
the expressions.
-/

namespace DataBinding

namespace BinaryOp

/-- The operation gives `r` on `a` and `b`. A quotient is one without remainder; a remainder is smaller than the divisor
and never of the sign opposite to the dividend's. -/
def Gives : BinaryOp → Int → Int → Int → Prop
  | .add, a, b, r => r = a + b
  | .sub, a, b, r => r = a - b
  | .mul, a, b, r => r = a * b
  | .div, a, b, r => b ≠ 0 ∧ a = b * r
  | .mod, a, b, r => (∃ q, a = b * q + r) ∧ r.natAbs < b.natAbs ∧ 0 ≤ a * r
  | _, _, _, _ => False

/-- The operations of arithmetic. -/
def arithmetical : List BinaryOp := [.add, .sub, .mul, .div, .mod]

variable {a b r : Int}

theorem gives_div_iff : Gives .div a b r ↔ (b ≠ 0 ∧ a.tmod b = 0) ∧ a.tdiv b = r := by
  constructor
  · rintro ⟨hb, rfl⟩
    exact ⟨⟨hb, Int.mul_tmod_right ..⟩, Int.mul_tdiv_cancel_left _ hb⟩
  · rintro ⟨⟨hb, hm⟩, rfl⟩
    exact ⟨hb, (Int.mul_tdiv_cancel_of_tmod_eq_zero hm).symm⟩

/-- The remainder is the one of the division that rounds towards zero. -/
theorem gives_mod_iff : Gives .mod a b r ↔ b ≠ 0 ∧ a.tmod b = r := by
  constructor
  · rintro ⟨⟨q, hq⟩, hlt, hsign⟩
    have hb : b ≠ 0 := by
      rintro rfl
      simp at hlt
    refine ⟨hb, ?_⟩
    obtain ha | rfl | ha := lt_trichotomy a 0
    · have hr : r ≤ 0 := nonpos_of_mul_nonneg_right hsign ha
      exact ((Int.tdiv_tmod_unique' (q := q) ha.le hb).2 ⟨by omega, by omega, hr⟩).2
    · -- a remainder of zero is a multiple of the divisor
      have hr : r = 0 := Int.eq_zero_of_dvd_of_natAbs_lt_natAbs ⟨-q, by linarith⟩ hlt
      rw [hr, Int.zero_tmod]
    · have hr : 0 ≤ r := nonneg_of_mul_nonneg_right hsign ha
      exact ((Int.tdiv_tmod_unique (q := q) ha.le hb).2 ⟨by omega, hr, by omega⟩).2
  · rintro ⟨hb, rfl⟩
    refine ⟨⟨a.tdiv b, (Int.mul_tdiv_add_tmod a b).symm⟩, ?_, ?_⟩
    · rw [Int.natAbs_tmod]
      exact Nat.mod_lt _ (Int.natAbs_pos.2 hb)
    · obtain ha | ha := Int.le_total 0 a
      · exact Int.mul_nonneg ha (Int.tmod_nonneg b ha)
      · have hr := Int.tmod_nonneg b (Int.neg_nonneg.2 ha)
        rw [Int.neg_tmod] at hr
        exact mul_nonneg_of_nonpos_of_nonpos ha (by omega)

end BinaryOp

/-- The value is the integer that `p` asks for if one of 64 bits is there, and the float `x` if none is. -/
structure Value.Exact (p : Int → Prop) (x : Float) (v : Value) : Prop where
  int (c : Int64) : v = .int c ↔ p c.toInt
  float : (∀ c : Int64, ¬p c.toInt) → v = .float x

namespace Operator

/-! ### Integers that fit -/

theorem minValue_toInt : Int64.minValue.toInt = -2 ^ 63 := by decide

theorem fit?_eq_some_iff {n : Int} {c : Int64} : fit? n = some c ↔ n = c.toInt := by
  unfold fit?
  have hmin := minValue_toInt
  have hmax : Int64.maxValue.toInt = 2 ^ 63 - 1 := by decide
  have hc := c.minValue_le_toInt
  have hc' := c.toInt_lt
  constructor
  · intro h
    split at h
    next hn =>
      obtain rfl : Int64.ofInt n = c := by simpa using h
      exact (Int64.toInt_ofInt_of_le (by omega) (by omega)).symm
    · cases h
  · rintro rfl
    rw [if_pos ⟨hc, by omega⟩, Int64.ofInt_toInt]

theorem isSome_fit?_iff {n : Int} : (fit? n).isSome ↔ -2 ^ 63 ≤ n ∧ n < 2 ^ 63 := by
  unfold fit?
  have hmin := minValue_toInt
  have hmax : Int64.maxValue.toInt = 2 ^ 63 - 1 := by decide
  split <;> simp <;> omega

/-- The quotient of two words fits, but for the one that is the first beyond them. -/
theorem isSome_fit?_tdiv_iff (a b : Int64) :
    (fit? (a.toInt.tdiv b.toInt)).isSome ↔ ¬(a = Int64.minValue ∧ b = -1) := by
  have hone : (-1 : Int64).toInt = -1 := by decide
  rw [isSome_fit?_iff, ← Int64.toInt_inj, ← Int64.toInt_inj, minValue_toInt, hone]
  have ha := a.le_toInt
  have ha' := a.toInt_lt
  generalize a.toInt = a at *
  generalize b.toInt = b at *
  have habs : (a.tdiv b).natAbs = a.natAbs / b.natAbs := Int.natAbs_tdiv a b
  obtain hsmall | hlarge := Nat.lt_or_ge b.natAbs 2
  · obtain rfl | rfl | rfl : b = 0 ∨ b = 1 ∨ b = -1 := by omega
    · simp
    · rw [Int.tdiv_one]
      omega
    · rw [Int.tdiv_neg, Int.tdiv_one]
      omega
  · -- the quotient by anything else is at most half as large as the dividend
    have hhalf : a.natAbs / b.natAbs ≤ a.natAbs / 2 := Nat.div_le_div_left hlarge (by omega)
    omega

/-- An operation gives the integer that it should, if that fits; only the remainder of the least word by `-1` is left
out. -/
theorem integral?_eq_some_iff {op : BinaryOp} (h : op ∈ BinaryOp.arithmetical) (a b c : Int64) :
    integral? op a.toInt b.toInt = some c ↔
      op.Gives a.toInt b.toInt c.toInt ∧ ¬(op = .mod ∧ a = Int64.minValue ∧ b = -1) := by
  simp only [BinaryOp.arithmetical, List.mem_cons, List.not_mem_nil, or_false] at h
  obtain rfl | rfl | rfl | rfl | rfl := h
  case inr.inr.inr.inl => simp [integral?, BinaryOp.gives_div_iff, fit?_eq_some_iff]
  case inr.inr.inr.inr =>
    simp only [integral?, BinaryOp.gives_mod_iff, isSome_fit?_tdiv_iff, Option.ite_none_right_eq_some,
      fit?_eq_some_iff, true_and]
    tauto
  -- a sum, a difference or a product only has to fit
  all_goals
    simp only [integral?, BinaryOp.Gives, fit?_eq_some_iff, reduceCtorEq, false_and, not_false_eq_true, and_true]
    exact eq_comm

theorem exact_match {p : Int → Prop} {x : Float} {r? : Option Int64} (h : ∀ c : Int64, r? = some c ↔ p c.toInt) :
    (match r? with
      | some r => Value.int r
      | none => .float x).Exact p x := by
  cases r? with
  | none => exact ⟨fun c => by simp [← h], fun _ => rfl⟩
  | some r => exact ⟨fun c => by simp [← h], fun hnone => absurd ((h r).1 rfl) (hnone r)⟩

theorem exact_arithmetic {op : BinaryOp} (h : op ∈ BinaryOp.arithmetical) (a b : Int64) :
    (arithmetic op (.int a) (.int b)).Exact
      (fun r => op.Gives a.toInt b.toInt r ∧ ¬(op = .mod ∧ a = Int64.minValue ∧ b = -1))
      (floatArithmetic op (Value.floatOf a) (Value.floatOf b)) :=
  exact_match (integral?_eq_some_iff h a b)

theorem exact_negate (a : Int64) :
    (unary .negate (.int a)).Exact (fun r => r = -a.toInt) (-Value.floatOf a) :=
  exact_match fun _ => fit?_eq_some_iff.trans eq_comm

theorem binary_of_mem_arithmetical {op : BinaryOp} (h : op ∈ BinaryOp.arithmetical)
    (has : ObjectId → String → Bool) (a b : Int64) :
    binary has op (.int a) (.int b) = arithmetic op (.int a) (.int b) := by
  simp only [BinaryOp.arithmetical, List.mem_cons, List.not_mem_nil, or_false] at h
  obtain rfl | rfl | rfl | rfl | rfl := h <;> rfl

end Operator

namespace Expr

variable {ctx : EvalContext} {w : Watch} {l r : Expr} {t t' t'' : EvalState}

/-- An operation that needs both of its sides is done on their values. -/
theorem run_binary {op : BinaryOp} (hand : op ≠ .and) (hor : op ≠ .or) {a b : Value}
    (hl : (l.evaluate ctx w).run t = (.ok a, t')) (hr : (r.evaluate ctx w).run t' = (.ok b, t'')) :
    ((binary op l r).evaluate ctx w).run t = (.ok (Operator.binary t''.store.hasProperty op a b), t'') := by
  simp only [evaluate_binary, Eval.run_bind, hl, hand, hor, false_and, or_false, if_false, hr, operate, Eval.run_store,
    Eval.run_pure]

theorem run_unary (op : UnaryOp) {a : Value} (hl : (l.evaluate ctx w).run t = (.ok a, t')) :
    ((unary op l).evaluate ctx w).run t = (.ok (Operator.unary op a), t') := by
  simp only [evaluate, Eval.run_bind, hl, Eval.run_pure]

/-- Arithmetic on integers does not fail, in whatever expressions, states and scopes the integers come up. It gives the
integer that is the result wherever that is one of 64 bits, except for the remainder of the least integer by `-1`, and
otherwise the float that the operation gives on the floats nearest to the integers. -/
theorem evaluate_arithmetic {a : Int64} (hl : (l.evaluate ctx w).run t = (.ok (.int a), t')) :
    (∃ v, ((unary .negate l).evaluate ctx w).run t = (.ok v, t') ∧
      v.Exact (fun r => r = -a.toInt) (-Value.floatOf a)) ∧
    ∀ (r : Expr) (t'' : EvalState) (b : Int64), (r.evaluate ctx w).run t' = (.ok (.int b), t'') →
      ∀ op ∈ BinaryOp.arithmetical, ∃ v, ((binary op l r).evaluate ctx w).run t = (.ok v, t'') ∧
        v.Exact (fun r => op.Gives a.toInt b.toInt r ∧ ¬(op = .mod ∧ a = Int64.minValue ∧ b = -1))
          (Operator.floatArithmetic op (Value.floatOf a) (Value.floatOf b)) := by
  refine ⟨⟨_, run_unary .negate hl, Operator.exact_negate a⟩, ?_⟩
  intro r t'' b hr op hop
  refine ⟨_, run_binary ?_ ?_ hl hr, ?_⟩
  · rintro rfl
    simp [BinaryOp.arithmetical] at hop
  · rintro rfl
    simp [BinaryOp.arithmetical] at hop
  · rw [Operator.binary_of_mem_arithmetical hop]
    exact Operator.exact_arithmetic hop a b

/-- A remainder of a negative integer, and what goes to floats: the least integer with its sign changed, the remainder
of the least integer by `-1`, and a quotient that is no integer. -/
theorem evaluate_arithmetic_literals :
    let ctx : EvalContext :=
      { flags := {}, scope := ⟨⟨1⟩, ⟨⟨0⟩, ⟨0⟩⟩, []⟩, host := none, converters := ∅, alive := fun _ => false }
    let t : EvalState := { store := {}, registry := { threshold := 0 } }
    let int (n : Int64) := literal (.int n)
    let result (e : Expr) := (e.evaluate ctx .everything).run t
    result (binary .mod (int (-7)) (int 2)) = (.ok (.int (-1)), t) ∧
      result (unary .negate (int Int64.minValue)) = (.ok (.float (-Value.floatOf Int64.minValue)), t) ∧
      result (binary .mod (int Int64.minValue) (int (-1))) =
        (.ok (.float (Binary.remainder (Value.floatOf Int64.minValue) (Value.floatOf (-1)))), t) ∧
      result (binary .div (int 7) (int 2)) = (.ok (.float (Value.floatOf 7 / Value.floatOf 2)), t) := by
  intro ctx t int result
  have hint (n : Int64) : ((int n).evaluate ctx .everything).run t = (.ok (.int n), t) := rfl
  have hexact {e : Expr} {p : Int → Prop} {x : Float} {v : Value} (h : ∃ v, result e = (.ok v, t) ∧ v.Exact p x)
      (hv : (∃ c, v = .int c ∧ p c.toInt) ∨ v = .float x ∧ ∀ c : Int64, ¬p c.toInt) : result e = (.ok v, t) := by
    obtain ⟨u, hu, hx⟩ := h
    obtain ⟨c, rfl, hc⟩ | ⟨rfl, hnone⟩ := hv
    · rw [hu, (hx.int c).2 hc]
    · rw [hu, hx.float hnone]
  refine ⟨hexact ((evaluate_arithmetic (hint _)).2 _ _ _ (hint _) _ (by decide)) (.inl ⟨-1, rfl, ?_⟩),
    hexact (evaluate_arithmetic (hint _)).1 (.inr ⟨rfl, ?_⟩),
    hexact ((evaluate_arithmetic (hint _)).2 _ _ _ (hint _) _ (by decide)) (.inr ⟨rfl, ?_⟩),
    hexact ((evaluate_arithmetic (hint _)).2 _ _ _ (hint _) _ (by decide)) (.inr ⟨rfl, ?_⟩)⟩
  · exact ⟨⟨⟨-3, by decide⟩, by decide, by decide⟩, by decide⟩
  · intro c hc
    have hmax := c.toInt_lt
    rw [Operator.minValue_toInt] at hc
    omega
  · rintro c ⟨-, hc⟩
    exact hc ⟨rfl, rfl, rfl⟩
  · rintro c ⟨⟨-, hc⟩, -⟩
    have h7 : (7 : Int64).toInt = 7 := by decide
    have h2 : (2 : Int64).toInt = 2 := by decide
    rw [h7, h2] at hc
    omega

end Expr

end DataBinding
