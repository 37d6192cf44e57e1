import Mathlib
import DataBinding.Value

/-!
# Rounding to doubles

A double has 53 binary digits. `Double.nearest n` is the natural number of so many digits nearest to `n`, the even one
of two that are equally near; `nearest_mono` and `nearest_mul_two_pow` are what the order of doubles needs of it.

The rest of the file reads the operations on floats off their definitions. A float `Denotes` an integer if it is that
many times the least positive double: `denotes_ofInt` says what the float of an integer denotes, `compare_of_denotes`
how two floats compare.
-/

namespace DataBinding

namespace Double

/-! ### Halves go to the even side -/

/-- The natural number nearest to `m / 2 ^ k`, the even one of two that are equally near. -/
def halfEven (m k : Nat) : Nat :=
  m / 2 ^ k + if 2 * (m % 2 ^ k) < 2 ^ k then 0 else if 2 ^ k < 2 * (m % 2 ^ k) then 1 else m / 2 ^ k % 2

/-- The number of 53 binary digits nearest to `n`, times the power of two that belongs to it. -/
def nearest (n : Nat) : Nat := halfEven n (n.log2 - 52) * 2 ^ (n.log2 - 52)

theorem halfEven_mono {m n : Nat} (h : m ≤ n) (k : Nat) : halfEven m k ≤ halfEven n k := by
  have hm := Nat.div_add_mod m (2 ^ k)
  have hn := Nat.div_add_mod n (2 ^ k)
  obtain hlt | heq := Nat.lt_or_eq_of_le (Nat.div_le_div_right (c := 2 ^ k) h)
  · calc
      halfEven m k ≤ m / 2 ^ k + 1 := by
        unfold halfEven
        split_ifs <;> omega
      _ ≤ n / 2 ^ k := hlt
      _ ≤ halfEven n k := Nat.le_add_right ..
  · -- with the same quotient the remainder decides
    unfold halfEven
    rw [heq] at hm ⊢
    split_ifs <;> omega

@[simp] theorem halfEven_mul (q k : Nat) : halfEven (q * 2 ^ k) k = q := by
  have hpos : 0 < 2 ^ k := Nat.two_pow_pos k
  simp [halfEven, Nat.mul_div_cancel _ hpos, hpos]

theorem halfEven_zero (m : Nat) : halfEven m 0 = m := by simpa using halfEven_mul m 0

theorem halfEven_mul_two_pow (m k j : Nat) : halfEven (m * 2 ^ j) (k + j) = halfEven m k := by
  have hpos : 0 < 2 ^ j := Nat.two_pow_pos j
  unfold halfEven
  simp only [Nat.pow_add, Nat.mul_div_mul_right _ _ hpos, Nat.mul_mod_mul_right, ← Nat.mul_assoc,
    Nat.mul_lt_mul_right hpos]

theorem le_halfEven {q m k : Nat} (h : q * 2 ^ k ≤ m) : q ≤ halfEven m k := by
  simpa using halfEven_mono h k

theorem halfEven_le {q m k : Nat} (h : m ≤ q * 2 ^ k) : halfEven m k ≤ q := by
  simpa using halfEven_mono h k

/-! ### Fifty-three digits -/

theorem log2_mul_two_pow {n : Nat} (h : n ≠ 0) (j : Nat) : (n * 2 ^ j).log2 = n.log2 + j := by
  have hpos : 0 < 2 ^ j := Nat.two_pow_pos j
  rw [Nat.log2_eq_iff (Nat.mul_ne_zero h hpos.ne'), Nat.pow_add, Nat.add_right_comm, Nat.pow_add]
  exact ⟨Nat.mul_le_mul_right _ (Nat.log2_self_le h), Nat.mul_lt_mul_of_pos_right Nat.lt_log2_self hpos⟩

/-- A number of so few digits is its own nearest, at any scale. -/
theorem nearest_of_lt {q : Nat} (h : q < 2 ^ 53) (j : Nat) : nearest (q * 2 ^ j) = q * 2 ^ j := by
  obtain rfl | hpos := Nat.eq_zero_or_pos q
  · rw [Nat.zero_mul]
    rfl
  have hlog : q.log2 < 53 := (Nat.log2_lt hpos.ne').2 h
  have hk : (q * 2 ^ j).log2 - 52 ≤ j := by
    rw [log2_mul_two_pow hpos.ne']
    omega
  obtain ⟨i, hi⟩ := Nat.exists_eq_add_of_le' hk
  rw [nearest]
  generalize (q * 2 ^ j).log2 - 52 = k at hi
  rw [hi, Nat.pow_add, ← Nat.mul_assoc, halfEven_mul]

theorem nearest_mul_two_pow (n j : Nat) : nearest (n * 2 ^ j) = nearest n * 2 ^ j := by
  obtain hsmall | hlarge := Nat.lt_or_ge n (2 ^ 53)
  · rw [nearest_of_lt hsmall j, ← Nat.mul_one n, ← Nat.pow_zero 2, nearest_of_lt hsmall 0]
  · have hn : n ≠ 0 := by omega
    have hlog : 53 ≤ n.log2 := (Nat.le_log2 hn).2 hlarge
    unfold nearest
    rw [log2_mul_two_pow hn, show n.log2 + j - 52 = n.log2 - 52 + j by omega, halfEven_mul_two_pow, Nat.pow_add,
      Nat.mul_assoc]

/-- Rounding does not leave the powers of two on both sides. -/
theorem nearest_bounds {n : Nat} (h : n ≠ 0) : 2 ^ n.log2 ≤ nearest n ∧ nearest n ≤ 2 ^ (n.log2 + 1) := by
  have hsplit (j : Nat) (hj : n.log2 ≤ j) : 2 ^ j = 2 ^ (j - (n.log2 - 52)) * 2 ^ (n.log2 - 52) := by
    rw [← Nat.pow_add]
    congr 1
    omega
  rw [nearest, hsplit n.log2 le_rfl, hsplit (n.log2 + 1) (Nat.le_succ _)]
  refine ⟨Nat.mul_le_mul_right _ (le_halfEven ?_), Nat.mul_le_mul_right _ (halfEven_le ?_)⟩
  · rw [← hsplit n.log2 le_rfl]
    exact Nat.log2_self_le h
  · rw [← hsplit (n.log2 + 1) (Nat.le_succ _)]
    exact Nat.lt_log2_self.le

theorem nearest_mono {m n : Nat} (h : m ≤ n) : nearest m ≤ nearest n := by
  obtain rfl | hm := Nat.eq_zero_or_pos m
  · exact Nat.zero_le _
  have hn : n ≠ 0 := by omega
  have hlog : m.log2 ≤ n.log2 := (Nat.le_log2 hn).2 ((Nat.log2_self_le hm.ne').trans h)
  obtain hlt | heq := Nat.lt_or_eq_of_le hlog
  · calc
      nearest m ≤ 2 ^ (m.log2 + 1) := (nearest_bounds hm.ne').2
      _ ≤ 2 ^ n.log2 := Nat.pow_le_pow_right (by decide) hlt
      _ ≤ nearest n := (nearest_bounds hn).1
  · unfold nearest
    rw [heq]
    exact Nat.mul_le_mul_right _ (halfEven_mono h _)

open Float.Model Float.Model.UnpackedFloat

/-! ### How floats are rounded -/

-- These are irreducible so that nobody computes the powers of two.
/-- The least positive double is one divided by `2 ^ scale`. -/
@[irreducible] def scale : Nat := 1074

/-- The exponent of the greatest doubles, counted from the least. -/
@[irreducible] def top : Nat := 2045

theorem scale_eq : scale = 1074 := by rw [scale]

theorem top_eq : top = 2045 := by rw [top]

theorem shiftRight_succ (m k : Nat) : (⟨m, false, false⟩ : ExtendedMantissa) >>> (k + 1) =
    ⟨m / 2 ^ (k + 1), m / 2 ^ k % 2 != 0, m % 2 ^ k != 0⟩ := by
  induction k with
  | zero =>
    change ExtendedMantissa.shiftRightOne ⟨m, false, false⟩ = _
    simp [ExtendedMantissa.shiftRightOne, Nat.mod_one]
  | succ k ih =>
    change ExtendedMantissa.shiftRightOne ((⟨m, false, false⟩ : ExtendedMantissa) >>> (k + 1)) = _
    -- what was shifted out before stays in the sticky bit
    have hmod : m % 2 ^ (k + 1) = m % 2 ^ k + 2 ^ k * (m / 2 ^ k % 2) := Nat.mod_pow_succ
    have hsticky : (m / 2 ^ k % 2 != 0 || m % 2 ^ k != 0) = (m % 2 ^ (k + 1) != 0) := by
      have hpos : 0 < 2 ^ k := Nat.two_pow_pos k
      rw [hmod, Bool.eq_iff_iff]
      simp
      omega
    rw [ih, ExtendedMantissa.shiftRightOne, hsticky, Nat.div_div_eq_div_mul, ← Nat.pow_succ]

theorem roundedMantissa_shiftRight (m k : Nat) :
    ((⟨m, false, false⟩ : ExtendedMantissa) >>> k).roundedMantissa = halfEven m k := by
  cases k with
  | zero =>
    rw [halfEven_zero]
    rfl
  | succ k =>
    have hmod : m % 2 ^ (k + 1) = m % 2 ^ k + 2 ^ k * (m / 2 ^ k % 2) := Nat.mod_pow_succ
    have hlt : m % 2 ^ k < 2 ^ k := Nat.mod_lt _ (Nat.two_pow_pos k)
    have hpow : 2 ^ (k + 1) = 2 * 2 ^ k := Nat.pow_succ'
    have hbit : m / 2 ^ k % 2 < 2 := Nat.mod_lt _ (by decide)
    rw [shiftRight_succ, halfEven, hmod, hpow]
    generalize m / (2 * 2 ^ k) = q
    generalize m % 2 ^ k = r at *
    generalize 2 ^ k = p at *
    generalize m / p % 2 = b at *
    obtain rfl | rfl : b = 0 ∨ b = 1 := by omega
    · -- less than a half is left over
      rw [if_pos (by omega)]
      cases r != 0 <;> rfl
    · rw [if_neg (by omega)]
      obtain rfl | hr := Nat.eq_zero_or_pos r
      · rw [if_neg (by omega)]
        rfl
      · rw [if_pos (by omega), show (r != 0) = true by simpa using hr.ne']
        rfl

theorem mantissa_shiftRight (m k : Nat) : ((⟨m, false, false⟩ : ExtendedMantissa) >>> k).mantissa = m / 2 ^ k := by
  cases k with
  | zero => exact (Nat.div_one m).symm
  | succ k => rw [shiftRight_succ]

theorem shiftToTargetExponent_exact (m : Nat) {e : Int} (h : -(scale : Int) ≤ e) :
    shiftToTargetExponent .binary64 m e .exact =
      ((⟨m, false, false⟩ : ExtendedMantissa) >>> (m.log2 - 52), e + (m.log2 - 52 : Nat)) := by
  have hshift : (Format.binary64.targetExponent (totalExponent m e) - e).toNat = m.log2 - 52 := by
    have := scale_eq
    simp only [Format.targetExponent, totalExponent, Format.mantissaBits, Format.minExponent]
    omega
  rw [shiftToTargetExponent, shiftToExponent, hshift]
  rfl

/-- The digits that rounding leaves: 53, but for the least number of 54. -/
theorem halfEven_log2_bounds {m : Nat} (h : 2 ^ 52 ≤ m) :
    halfEven m (m.log2 - 52) ≤ 2 ^ 53 ∧ 2 ^ 52 ≤ halfEven m (m.log2 - 52) := by
  have hm : m ≠ 0 := by omega
  have hlog : 52 ≤ m.log2 := (Nat.le_log2 hm).2 h
  constructor
  · apply halfEven_le
    rw [← Nat.pow_add, show 53 + (m.log2 - 52) = m.log2 + 1 by omega]
    exact Nat.lt_log2_self.le
  · apply le_halfEven
    rw [← Nat.pow_add, Nat.add_sub_cancel' hlog]
    exact Nat.log2_self_le hm

/-- The digits of a number are rounded to 53; should that give one more, the last of them, a zero, is dropped. What does
not fit goes into the exponent. -/
theorem roundWithAccuracy_eq (s : Sign) (m : Nat) {e : Int} (he : -(scale : Int) ≤ e) :
    roundWithAccuracy .binary64 s m e .exact =
      let h := halfEven m (m.log2 - 52)
      let d := h / 2 ^ (h.log2 - 52)
      if hd : d = 0 then .zero s
      else .finite s d (e + (m.log2 - 52 : Nat) + (h.log2 - 52 : Nat)) (Nat.pos_of_ne_zero hd) := by
  unfold roundWithAccuracy
  simp only [shiftToTargetExponent_exact m he, roundedMantissa_shiftRight, mantissa_shiftRight,
    shiftToTargetExponent_exact (halfEven m (m.log2 - 52)) (show -(scale : Int) ≤ e + (m.log2 - 52 : Nat) by omega)]

theorem exists_roundWithAccuracy (s : Sign) {m : Nat} (hm : 2 ^ 52 ≤ m) (i : Nat) :
    ∃ M h j, roundWithAccuracy .binary64 s m (i - scale) .exact = .finite s M ((i + j : Nat) - scale) h ∧
      M * 2 ^ j = nearest m ∧ 2 ^ 52 ≤ M ∧ M < 2 ^ 53 := by
  have hnearest : nearest m = halfEven m (m.log2 - 52) * 2 ^ (m.log2 - 52) := rfl
  obtain ⟨hle, hge⟩ := halfEven_log2_bounds hm
  rw [roundWithAccuracy_eq s m (by omega)]
  generalize m.log2 - 52 = k at hnearest hle hge
  generalize halfEven m k = d at hnearest hle hge
  obtain hlt | rfl := Nat.lt_or_eq_of_le hle
  · have hpos : d ≠ 0 := by omega
    have hlog : d.log2 - 52 = 0 := by
      have := (Nat.log2_lt hpos).2 hlt
      omega
    refine ⟨d, Nat.pos_of_ne_zero hpos, k, ?_, hnearest.symm, hge, hlt⟩
    simp only [hlog, Nat.pow_zero, Nat.div_one, dif_neg hpos]
    congr 1
    push_cast
    ring
  · refine ⟨2 ^ 52, by decide, k + 1, ?_, ?_, le_rfl, by decide⟩
    · have hdigits : 2 ^ 53 / 2 ^ (53 - 52) = 2 ^ 52 := by decide
      simp only [Nat.log2_two_pow, hdigits, dif_neg (show 2 ^ 52 ≠ 0 by decide)]
      congr 1
      push_cast
      ring
    · rw [hnearest, Nat.pow_succ']
      ring

/-! ### What a float denotes -/

theorem unpack_pack_zero (s : Sign) : (pack (.zero s)).unpack = .zero s := by
  cases s <;> rfl

theorem unpack_pack_finite {s : Sign} {M E : Nat} {h : 0 < M} (hge : 2 ^ 52 ≤ M) (hlt : M < 2 ^ 53) (hE : E ≤ top) :
    (pack (.finite s M (E - scale) h)).unpack = .finite s M (E - scale) h := by
  have hlog : M.log2 = 52 := (Nat.log2_eq_iff h.ne').2 ⟨hge, hlt⟩
  obtain ⟨b, hb1, hbE⟩ : ∃ b : Nat, (E - scale : Int) = b - 1075 ∧ 0 < b ∧ b < 2047 :=
    ⟨E + 1, by rw [scale_eq]; omega, by omega, by rw [top_eq] at hE; omega⟩
  rw [hb1]
  have hbiased : (b - 1075 + Format.binary64.exponentBias + Format.binary64.mantissaBitsWithoutImplicit : Int).toNat
      = b := by
    change (b - 1075 + (1023 : Nat) + (52 : Nat) : Int).toNat = b
    omega
  have hb : (BitVec.ofNat 11 b).toNat = b := by
    rw [BitVec.toNat_ofNat, Nat.mod_eq_of_lt (by omega)]
  have hones : BitVec.ofNat 11 b ≠ -1#11 := by
    intro hb'
    have := hb.symm.trans (congrArg BitVec.toNat hb')
    change b = 2047 at this
    omega
  have hzeros : BitVec.ofNat 11 b ≠ 0#11 := by
    intro hb'
    have := hb.symm.trans (congrArg BitVec.toNat hb')
    change b = 0 at this
    omega
  -- the leading digit of the mantissa is not kept
  have hm : (1#1 ++ BitVec.ofNat 52 M).toNat = M := by
    have hmod : M % 2 ^ 52 < 2 ^ 52 := Nat.mod_lt _ (by decide)
    rw [BitVec.toNat_append, BitVec.toNat_ofNat, BitVec.toNat_ofNat, ← Nat.shiftLeft_add_eq_or_of_lt hmod,
      Nat.shiftLeft_eq]
    omega
  have hs : Sign.ofBitVec s.toBitVec = s := by cases s <;> rfl
  change UnpackedFloat.unpack .binary64 (UnpackedFloat.pack .binary64 _) = _
  rw [UnpackedFloat.pack]
  simp only [hlog, hbiased]
  rw [if_neg (by omega), if_pos (by decide), UnpackedFloat.unpack]
  simp only [unpackMantissa_packComponents, unpackExponent_packComponents, unpackSign_packComponents, hones, hzeros,
    if_false, hb, hm, hs]
  rfl

/-- The float is zero or a double of 53 digits, and `z` times the least positive double. -/
inductive Denotes (x : Float) : Int → Prop
  | zero {s : Sign} : x.toModel.unpack = .zero s → Denotes x 0
  | normal {s : Sign} {M E : Nat} {h : 0 < M} : x.toModel.unpack = .finite s M (E - scale) h → 2 ^ 52 ≤ M → M < 2 ^ 53 →
      E ≤ top → Denotes x (s.apply (M * 2 ^ E))

theorem compare_mul_two_pow (z w : Int) (k : Nat) : compare (z * 2 ^ k) (w * 2 ^ k) = compare z w := by
  have hpos : (0 : Int) < 2 ^ k := by positivity
  obtain h | rfl | h := Int.lt_trichotomy z w
  · rw [Int.compare_eq_lt.2 h, Int.compare_eq_lt.2 (mul_lt_mul_of_pos_right h hpos)]
  · rw [Int.compare_eq_eq.2 rfl, Int.compare_eq_eq.2 rfl]
  · rw [Int.compare_eq_gt.2 h, Int.compare_eq_gt.2 (mul_lt_mul_of_pos_right h hpos)]

/-- With equally many digits the greater exponent wins, and with equal exponents the greater mantissa. -/
theorem compare_normal {M M' : Nat} (E E' : Nat) (hM : 2 ^ 52 ≤ M) (hM' : 2 ^ 52 ≤ M') (hlt : M < 2 ^ 53)
    (hlt' : M' < 2 ^ 53) :
    (compare (E - scale : Int) (E' - scale)).then (compare M M') = compare (M * 2 ^ E : Int) (M' * 2 ^ E') := by
  have hless {M M' E E' : Nat} (hlt : M < 2 ^ 53) (hM' : 2 ^ 52 ≤ M') (h : E < E') :
      (M * 2 ^ E : Int) < M' * 2 ^ E' := by
    have : M * 2 ^ E < M' * 2 ^ E' := calc
      M * 2 ^ E < 2 ^ 53 * 2 ^ E := Nat.mul_lt_mul_of_pos_right hlt (Nat.two_pow_pos E)
      _ = 2 ^ 52 * 2 ^ (E + 1) := by ring
      _ ≤ M' * 2 ^ E' := Nat.mul_le_mul hM' (Nat.pow_le_pow_right (by decide) h)
    exact_mod_cast this
  obtain h | rfl | h := Nat.lt_trichotomy E E'
  · rw [Int.compare_eq_lt.2 (by omega), Int.compare_eq_lt.2 (hless hlt hM' h)]
    rfl
  · rw [Int.compare_eq_eq.2 rfl, Ordering.eq_then, compare_mul_two_pow]
    simp only [compare, compareOfLessAndEq, Nat.cast_lt, Nat.cast_inj]
  · rw [Int.compare_eq_gt.2 (by omega), Int.compare_eq_gt.2 (hless hlt' hM h)]
    rfl

theorem compare_neg (z w : Int) : compare (-z) (-w) = (compare z w).swap := by
  rw [Int.compare_swap]
  obtain h | rfl | h := Int.lt_trichotomy z w
  · rw [Int.compare_eq_gt.2 (by omega), Int.compare_eq_gt.2 h]
  · rw [Int.compare_eq_eq.2 rfl, Int.compare_eq_eq.2 rfl]
  · rw [Int.compare_eq_lt.2 (by omega), Int.compare_eq_lt.2 h]

/-- Floats compare as the integers that they denote. -/
theorem compare_of_denotes {x y : Float} {z w : Int} (hx : Denotes x z) (hy : Denotes y w) :
    x.toModel.unpack.compare y.toModel.unpack = some (compare z w) := by
  have hpos {M : Nat} (h : 0 < M) (E : Nat) : (0 : Int) < M * 2 ^ E := by positivity
  have hneg {M : Nat} (h : 0 < M) (E : Nat) : -(M * 2 ^ E : Int) < 0 := Int.neg_neg_of_pos (hpos h E)
  cases hx with
  | zero hx =>
    cases hy with
    | zero hy => rw [hx, hy]; rfl
    | @normal t N F k hy hN hN' hF =>
      rw [hx, hy]
      cases t with
      | negative => exact congrArg some (Int.compare_eq_gt.2 (hneg k F)).symm
      | positive => exact congrArg some (Int.compare_eq_lt.2 (hpos k F)).symm
  | @normal s M E h hx hM hM' hE =>
    cases hy with
    | zero hy =>
      rw [hx, hy]
      cases s with
      | negative => exact congrArg some (Int.compare_eq_lt.2 (hneg h E)).symm
      | positive => exact congrArg some (Int.compare_eq_gt.2 (hpos h E)).symm
    | @normal t N F k hy hN hN' hF =>
      rw [hx, hy]
      have hcompare := compare_normal E F hM hN hM' hN'
      cases s <;> cases t
      case positive.positive => exact congrArg some hcompare
      case negative.negative => exact congrArg some ((congrArg Ordering.swap hcompare).trans (compare_neg _ _).symm)
      case negative.positive => exact congrArg some (Int.compare_eq_lt.2 ((hneg h E).trans (hpos k F))).symm
      case positive.negative => exact congrArg some (Int.compare_eq_gt.2 ((hneg k F).trans (hpos h E))).symm

theorem denotes_neg {x : Float} {z : Int} (h : Denotes x z) : Denotes (-x) (-z) := by
  have hx : (-x).toModel.unpack = (pack x.toModel.unpack.neg).unpack := rfl
  cases h with
  | zero hs =>
    rw [hs] at hx
    exact .zero (hx.trans (unpack_pack_zero _))
  | @normal s M E h hs hM hM' hE =>
    rw [hs] at hx
    have := Denotes.normal (hx.trans (unpack_pack_finite hM hM' hE)) hM hM' hE
    cases s
    · simpa [Sign.apply] using this
    · simpa [Sign.apply] using this

theorem beq_of_denotes {x y : Float} {z w : Int} (hx : Denotes x z) (hy : Denotes y w) :
    (x == y) = (compare z w == .eq) := by
  change (x.toModel.unpack.compare y.toModel.unpack == some .eq) = _
  rw [compare_of_denotes hx hy]
  rfl

theorem lt_of_denotes {x y : Float} {z w : Int} (hx : Denotes x z) (hy : Denotes y w) :
    x < y ↔ compare z w = .lt := by
  change decide ((x.toModel.unpack.compare y.toModel.unpack == some .lt) = true) = true ↔ _
  rw [compare_of_denotes hx hy]
  cases compare z w <;> decide

theorem le_of_denotes {x y : Float} {z w : Int} (hx : Denotes x z) (hy : Denotes y w) :
    x ≤ y ↔ (compare z w).isLE = true := by
  change decide ((x.toModel.unpack.compare y.toModel.unpack).any (·.isLE) = true) = true ↔ _
  rw [compare_of_denotes hx hy]
  cases compare z w <;> decide

/-! ### The floats of integers -/

theorem mul_two_pow_lt {m n j k : Nat} (h : m < n) (hjk : j ≤ k) : m * 2 ^ j < n * 2 ^ k :=
  Nat.mul_lt_mul_of_lt_of_le h (Nat.pow_le_pow_right (by decide) hjk) (Nat.two_pow_pos k)

theorem exponent_le {M E k : Nat} (hM : 2 ^ 52 ≤ M) (h : M * 2 ^ E < 2 ^ 53 * 2 ^ k) : E ≤ k := by
  by_contra hE
  have : 2 ^ 53 * 2 ^ k ≤ M * 2 ^ E := calc
    2 ^ 53 * 2 ^ k = 2 ^ 52 * 2 ^ (k + 1) := by ring
    _ ≤ M * 2 ^ E := Nat.mul_le_mul hM (Nat.pow_le_pow_right (by decide) (by omega))
  omega

/-- A rounded number in the range of doubles denotes the nearest of 53 digits. -/
theorem denotes_round (s : Sign) {m i : Nat} (hm : 2 ^ 52 ≤ m) (h : nearest m * 2 ^ i < 2 ^ 53 * 2 ^ top) :
    Denotes (.ofModel (pack (roundWithAccuracy .binary64 s m (i - scale) .exact))) (s.apply (nearest m * 2 ^ i)) := by
  obtain ⟨M, hpos, j, hround, hnearest, hM, hlt⟩ := exists_roundWithAccuracy s hm i
  have hscale : nearest m * 2 ^ i = M * 2 ^ (i + j) := by
    rw [← hnearest, Nat.mul_assoc, ← Nat.pow_add, Nat.add_comm]
  rw [hscale] at h
  have hE : i + j ≤ top := exponent_le hM h
  rw [hround, show (nearest m * 2 ^ i : Int) = M * 2 ^ (i + j) by exact_mod_cast hscale]
  exact .normal (unpack_pack_finite hM hlt hE) hM hlt hE

theorem denotes_toFloat {n : Nat} (hn : n ≠ 0) (h : n < 2 ^ 53) : Denotes n.toUInt64.toFloat (n * 2 ^ scale) := by
  have hnat : n.toUInt64.toNat = n := Nat.mod_eq_of_lt (by omega)
  have hlog : n.log2 ≤ 52 := by
    have := (Nat.log2_lt hn).2 h
    omega
  obtain ⟨j, hj⟩ := Nat.exists_eq_add_of_le hlog
  have hle : j ≤ scale := by
    rw [scale_eq]
    omega
  have htarget : Format.binary64.targetExponent (totalExponent n 0) = -(j : Int) := by
    simp only [Format.targetExponent, totalExponent, Format.mantissaBits, Format.minExponent]
    omega
  have hfloat : n.toUInt64.toFloat =
      .ofModel (pack (roundWithAccuracy .binary64 .positive (n * 2 ^ j) ((scale - j : Nat) - scale) .exact)) := by
    change Float.ofModel (pack (normalize .binary64 n.toUInt64.toNat 0 .positive)) = _
    rw [hnat, UnpackedFloat.normalize, Int.compare_eq_gt.2 (by omega)]
    simp only [Int.toNat_natCast, UnpackedFloat.round, htarget, decreaseExponent, Nat.shiftLeft_eq]
    congr 3
    · simp
    · omega
  have hm : 2 ^ 52 ≤ n * 2 ^ j := calc
    2 ^ 52 = 2 ^ n.log2 * 2 ^ j := by rw [hj, Nat.pow_add]
    _ ≤ n * 2 ^ j := Nat.mul_le_mul_right _ (Nat.log2_self_le hn)
  have hnearest : nearest (n * 2 ^ j) * 2 ^ (scale - j) = n * 2 ^ scale := by
    rw [nearest_of_lt h, Nat.mul_assoc, pow_mul_pow_sub 2 hle]
  have hrange : nearest (n * 2 ^ j) * 2 ^ (scale - j) < 2 ^ 53 * 2 ^ top := by
    rw [hnearest]
    exact mul_two_pow_lt h (by rw [scale_eq, top_eq]; decide)
  have hround := denotes_round .positive hm hrange
  rw [hfloat, show (n * 2 ^ scale : Int) = nearest (n * 2 ^ j) * 2 ^ (scale - j) by exact_mod_cast hnearest.symm]
  exact hround

theorem unpack_of_denotes {x : Float} {z : Nat} (hx : Denotes x z) (hz : z ≠ 0) :
    ∃ (M E : Nat) (h : 0 < M), x.toModel.unpack = .finite .positive M (E - scale) h ∧ 2 ^ 52 ≤ M ∧ M < 2 ^ 53 ∧
      z = M * 2 ^ E := by
  generalize hi : (z : Int) = i at hx
  cases hx with
  | zero => omega
  | @normal s M E h hs hM hM' hE =>
    cases s with
    | negative =>
      have hpos : (0 : Int) < M * 2 ^ E := by positivity
      change _ = -(M * 2 ^ E : Int) at hi
      omega
    | positive =>
      change (z : Int) = M * 2 ^ E at hi
      exact ⟨M, E, h, hs, hM, hM', by exact_mod_cast hi⟩

/-- The product of two doubles that are not below one is rounded once. -/
theorem denotes_mul {x y : Float} {z w : Nat} (hx : Denotes x z) (hy : Denotes y w) (hz : 2 ^ scale ≤ z)
    (hw : 2 ^ scale ≤ w) (hrange : nearest (z * w) < 2 ^ 53 * 2 ^ top * 2 ^ scale) :
    ∃ v : Nat, Denotes (x * y) v ∧ v * 2 ^ scale = nearest (z * w) := by
  have hpos : 0 < 2 ^ scale := Nat.two_pow_pos scale
  obtain ⟨M, E, h, hx', hM, hM', rfl⟩ := unpack_of_denotes hx (by omega)
  obtain ⟨N, F, k, hy', hN, hN', rfl⟩ := unpack_of_denotes hy (by omega)
  have hexponent {M E : Nat} (hM : M < 2 ^ 53) (h : 2 ^ scale ≤ M * 2 ^ E) : scale < 53 + E := by
    rw [← Nat.pow_lt_pow_iff_right (show 1 < 2 by decide), Nat.pow_add]
    exact h.trans_lt (Nat.mul_lt_mul_of_pos_right hM (Nat.two_pow_pos E))
  obtain ⟨i, hi⟩ : ∃ i, E + F = i + scale := ⟨E + F - scale, by
    have := hexponent hM' hz
    have := hexponent hN' hw
    have := scale_eq
    omega⟩
  have hnearest : nearest (M * N) * 2 ^ i * 2 ^ scale = nearest (M * 2 ^ E * (N * 2 ^ F)) := by
    rw [Nat.mul_assoc, ← Nat.pow_add, ← hi, ← nearest_mul_two_pow, Nat.pow_add]
    congr 1
    ring
  rw [← hnearest] at hrange ⊢
  have hMN : 2 ^ 52 ≤ M * N := by
    calc 2 ^ 52 ≤ 2 ^ 52 * 2 ^ 52 := by decide
      _ ≤ M * N := Nat.mul_le_mul hM hN
  refine ⟨nearest (M * N) * 2 ^ i, ?_, rfl⟩
  have hround := denotes_round .positive hMN (Nat.lt_of_mul_lt_mul_right hrange)
  have hprod : x * y = .ofModel (pack (roundWithAccuracy .binary64 .positive (M * N) (i - scale) .exact)) := by
    change Float.ofModel (pack (mul .binary64 x.toModel.unpack y.toModel.unpack)) = _
    rw [hx', hy', show (i - scale : Int) = E - scale + (F - scale) by omega]
    rfl
  rw [hprod]
  exact_mod_cast hround

/-- The powers of ten that are doubles. -/
theorem denotes_powerOfTen (e : Fin 23) :
    Denotes (Float.exactlyRepresentablePowersOfTen[e]) (10 ^ e.val * 2 ^ scale : Nat) := by
  obtain ⟨M, k, h, hunpack, hM, hM', hk, hpower⟩ : ∃ (M k : Nat) (h : 0 < M),
      (Float.exactlyRepresentablePowersOfTen[e]).toModel.unpack =
        .finite .positive M ((k + (scale - 52) : Nat) - scale) h ∧
      2 ^ 52 ≤ M ∧ M < 2 ^ 53 ∧ k < 100 ∧ M * 2 ^ k = 10 ^ e.val * 2 ^ 52 := by
    rw [scale_eq]
    refine ⟨10 ^ e.val * 2 ^ 52 / 2 ^ (10 ^ e.val).log2, (10 ^ e.val).log2, ?_⟩
    fin_cases e <;> exact ⟨by decide, rfl, by decide⟩
  have hle : 52 ≤ scale := by rw [scale_eq]; decide
  have hvalue : M * 2 ^ (k + (scale - 52)) = 10 ^ e.val * 2 ^ scale := by
    rw [Nat.pow_add, ← Nat.mul_assoc, hpower, Nat.mul_assoc, ← Nat.pow_add, Nat.add_sub_cancel' hle]
  have hE : k + (scale - 52) ≤ top := by
    rw [scale_eq, top_eq]
    omega
  rw [← hvalue]
  exact_mod_cast Denotes.normal hunpack hM hM' hE

/-- The float of `n * 10 ^ e` denotes the nearest number of 53 digits. -/
theorem denotes_ofScientific {n e : Nat} (hn : n ≠ 0) (he : e ≤ 2048)
    (hrange : nearest (n * 10 ^ e) * 2 ^ scale < 2 ^ 53 * 2 ^ top) :
    Denotes (Float.ofScientific n false e) (nearest (n * 10 ^ e) * 2 ^ scale : Nat) := by
  have hpos : 0 < 2 ^ scale := Nat.two_pow_pos scale
  by_cases hsmall : n < 2 ^ 53 ∧ e ≤ 22
  · -- both factors are doubles, and their product is rounded
    have hfloat : Float.ofScientific n false e =
        n.toUInt64.toFloat * Float.exactlyRepresentablePowersOfTen[(⟨e, by omega⟩ : Fin 23)] := by
      rw [Float.ofScientific, dif_pos hsmall]
      rfl
    have hn' : Denotes n.toUInt64.toFloat (n * 2 ^ scale : Nat) := by
      exact_mod_cast denotes_toFloat hn hsmall.1
    have hexact : nearest (n * 2 ^ scale * (10 ^ e * 2 ^ scale)) = nearest (n * 10 ^ e) * 2 ^ scale * 2 ^ scale := by
      rw [← nearest_mul_two_pow, ← nearest_mul_two_pow]
      congr 1
      ring
    obtain ⟨v, hv, hveq⟩ := denotes_mul hn' (denotes_powerOfTen ⟨e, by omega⟩)
      (Nat.le_mul_of_pos_left _ (Nat.pos_of_ne_zero hn)) (Nat.le_mul_of_pos_left _ (by positivity))
      (by rw [hexact]; exact Nat.mul_lt_mul_of_pos_right hrange hpos)
    rw [hexact] at hveq
    rw [hfloat, ← Nat.mul_right_cancel hpos hveq]
    exact hv
  · have hfloat : Float.ofScientific n false e =
        .ofModel (pack (roundWithAccuracy .binary64 .positive (n * 10 ^ e * 2 ^ 53) ((1021 : Nat) - scale) .exact)) := by
      rw [Float.ofScientific, dif_neg hsmall]
      change Float.ofModel (pack (UnpackedFloat.ofScientific .binary64 n e)) = _
      have hhigh : ¬(e : Int) > 2 ^ Format.binary64.exponentBits := by
        change ¬(e : Int) > 2048
        omega
      have hlow : ¬(e : Int) < -(2 ^ Format.binary64.exponentBits + n.log2) := by
        change ¬(e : Int) < -(2048 + n.log2)
        omega
      rw [UnpackedFloat.ofScientific, dif_neg hn, if_neg hhigh, if_neg hlow, if_pos (Int.natCast_nonneg e)]
      change Float.ofModel (pack (roundWithAccuracy .binary64 .positive (n <<< 53 * 10 ^ e) (-53 + 0) .exact)) = _
      rw [Nat.shiftLeft_eq, Nat.mul_right_comm, scale_eq]
      rfl
    have hscale : nearest (n * 10 ^ e * 2 ^ 53) * 2 ^ 1021 = nearest (n * 10 ^ e) * 2 ^ scale := by
      rw [nearest_mul_two_pow, Nat.mul_assoc, ← Nat.pow_add, show 53 + 1021 = scale from scale_eq.symm]
    rw [← hscale] at hrange
    have hlarge : 2 ^ 52 ≤ n * 10 ^ e * 2 ^ 53 := calc
      2 ^ 52 ≤ 1 * 2 ^ 53 := by decide
      _ ≤ n * 10 ^ e * 2 ^ 53 := Nat.mul_le_mul_right _ (Nat.mul_pos (Nat.pos_of_ne_zero hn) (by positivity))
    have hround := denotes_round .positive hlarge hrange
    rw [hfloat, ← hscale]
    exact_mod_cast hround

/-- The float of a natural number denotes the nearest number of 53 digits. -/
theorem denotes_ofNat {n : Nat} (hrange : nearest n * 2 ^ scale < 2 ^ 53 * 2 ^ top) :
    Denotes (Float.ofNat n) (nearest n * 2 ^ scale : Nat) := by
  obtain rfl | hn := Nat.eq_zero_or_pos n
  · rw [show nearest 0 = 0 from rfl, Nat.zero_mul]
    exact .zero (s := .positive) rfl
  · have hfloat := denotes_ofScientific (e := 0) hn.ne' (by decide) (by simpa using hrange)
    rwa [Nat.pow_zero, Nat.mul_one] at hfloat

/-- The integer of 53 binary digits, times a power of two, nearest to `z`. -/
def nearestInt (z : Int) : Int := z.sign * nearest z.natAbs

theorem nearestInt_natCast (n : Nat) : nearestInt n = nearest n := by
  cases n with
  | zero => rfl
  | succ n => rw [nearestInt, Int.sign_natCast_of_ne_zero (Nat.succ_ne_zero n), Int.one_mul, Int.natAbs_natCast]

theorem nearestInt_neg (z : Int) : nearestInt (-z) = -nearestInt z := by
  rw [nearestInt, nearestInt, Int.sign_neg, Int.natAbs_neg, Int.neg_mul]

theorem nearestInt_of_natAbs_le {z : Int} (h : z.natAbs ≤ 2 ^ 53) : nearestInt z = z := by
  have hnearest : nearest z.natAbs = z.natAbs := by
    obtain hlt | heq := Nat.lt_or_eq_of_le h
    · simpa using nearest_of_lt hlt 0
    · rw [heq]
      rfl
  rw [nearestInt, hnearest, Int.sign_mul_natAbs]

theorem nearestInt_mono {z w : Int} (h : z ≤ w) : nearestInt z ≤ nearestInt w := by
  obtain ⟨m, rfl | rfl⟩ := z.eq_nat_or_neg <;> obtain ⟨n, rfl | rfl⟩ := w.eq_nat_or_neg
  · rw [nearestInt_natCast, nearestInt_natCast]
    exact_mod_cast nearest_mono (by omega : m ≤ n)
  · obtain ⟨rfl, rfl⟩ : m = 0 ∧ n = 0 := by omega
    exact le_rfl
  · rw [nearestInt_neg, nearestInt_natCast, nearestInt_natCast]
    omega
  · rw [nearestInt_neg, nearestInt_neg, nearestInt_natCast, nearestInt_natCast]
    have : nearest n ≤ nearest m := nearest_mono (by omega)
    omega

/-- The float of an integer denotes the nearest number of 53 digits. -/
theorem denotes_ofInt {z : Int} (hrange : nearest z.natAbs * 2 ^ scale < 2 ^ 53 * 2 ^ top) :
    Denotes (Float.ofInt z) (nearestInt z * 2 ^ scale) := by
  cases z with
  | ofNat n =>
    change Denotes (Float.ofNat n) (nearestInt n * 2 ^ scale)
    rw [nearestInt_natCast]
    exact_mod_cast denotes_ofNat hrange
  | negSucc n =>
    change Denotes (-Float.ofNat (n + 1)) (nearestInt (-(n + 1 : Nat)) * 2 ^ scale)
    rw [nearestInt_neg, nearestInt_natCast, Int.neg_mul]
    exact_mod_cast denotes_neg (denotes_ofNat hrange)

end Double

end DataBinding
