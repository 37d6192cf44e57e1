import DataBinding.Proofs.NumberReading

/-!
# Floats in JSON texts

A finite float is written with the digits of its shortest decimal in one of three layouts. Each of them spells a number
that is as great as the decimal (`spellsAtMost_integer`, `spellsAtMost_fraction`, `spellsAtMost_exponent`), and the
decimal reads back as the float, so it is not beyond the middle between this float and the next one
(`atMost_shortest`). So a finite float is accepted by a reader (`exists_readsAs_float`), who may find another float
there, because reading rounds more than once.
-/

namespace DataBinding

namespace Json

namespace Spelling

open Numeral

/-! ### Decimals as JSON numbers -/

theorem wholeOK_of_head? {ds : List Char} (hne : ds ≠ []) (hhead : ds.head? ≠ some '0') : wholeOK ds = true := by
  unfold wholeOK
  split
  · rfl
  · simp at hhead
  · simpa using hne

theorem wholeOK_singleton (c : Char) : wholeOK [c] = true := by
  by_cases hc : c = '0'
  · rw [hc]
    rfl
  · exact wholeOK_of_head? (List.cons_ne_nil c []) (by simpa using hc)

theorem value_lt_size {ds : List Char} (hdigits : ∀ c ∈ ds, isDigit c = true) (hlength : ds.length ≤ 16) :
    value ds < UInt64.size := calc
  value ds < 10 ^ ds.length := value_lt hdigits
  _ ≤ 10 ^ 16 := Nat.pow_le_pow_right (by decide) hlength
  _ ≤ UInt64.size := by decide

theorem isDigit_zeros {k : Nat} : ∀ c ∈ List.replicate k '0', isDigit c = true := by
  intro c hc
  rw [List.eq_of_mem_replicate hc]
  rfl

theorem pointPlace_eq (d : Decimal) : d.pointPlace = (Nat.toDigits 10 d.digits).length + d.exponent := by
  rw [Decimal.pointPlace, ← String.length_toList, Nat.toList_repr]

/-- The digits before the point and those after it, in a number that has no exponent. -/
structure IsPositional (cs whole fraction : List Char) : Prop where
  chars : cs = whole ++ '.' :: fraction
  ok : wholeOK whole = true
  wholeDigits {c : Char} : c ∈ whole → isDigit c = true
  short : whole.length ≤ 16
  nonempty : fraction ≠ []
  fractionDigits {c : Char} : c ∈ fraction → isDigit c = true

theorem IsPositional.spelled {cs whole fraction : List Char} (h : IsPositional cs whole fraction) (negative : Bool) :
    Spelled (sign negative ++ cs) ⟨negative, whole, some fraction, none⟩ := by
  have hspelled := spelled_fraction negative h.ok (fun _ => h.wholeDigits) isTail_nil h.nonempty
    fun _ => h.fractionDigits
  rw [h.chars]
  simpa using hspelled

/-- An integer has a zero as its fraction. -/
theorem exists_positional_integer {d : Decimal} (hexponent : 0 ≤ d.exponent) (hplace : d.pointPlace ≤ 16) :
    ∃ whole, IsPositional (d.positional ++ ".0").toList whole ['0'] ∧
      value whole = d.digits * 10 ^ d.exponent.toNat := by
  rw [pointPlace_eq] at hplace
  rw [Decimal.positional, if_pos hexponent]
  split
  next hzero =>
    exact ⟨['0'], ⟨rfl, rfl, isDigit_zeros (k := 1) _, by decide, by simp, isDigit_zeros (k := 1) _⟩,
      by rw [hzero, Nat.zero_mul]; rfl⟩
  next hpos =>
    have hne : Nat.toDigits 10 d.digits ≠ [] := Nat.toDigits_ne_nil
    refine ⟨Nat.toDigits 10 d.digits ++ List.replicate d.exponent.toNat '0',
      ⟨?_, wholeOK_of_head? (by simp [hne]) ?_, ?_, ?_, by simp, isDigit_zeros (k := 1) _⟩, ?_⟩
    · simp [Decimal.zeros, String.toList_append, Nat.toList_repr]
    · rw [List.head?_append_of_ne_nil _ hne]
      exact head?_toDigits_ne_zero (Nat.pos_of_ne_zero hpos)
    · intro c hc
      obtain hc | hc := List.mem_append.1 hc
      · exact isDigit_of_mem_toDigits hc
      · exact isDigit_zeros c hc
    · rw [List.length_append, List.length_replicate]
      omega
    · rw [value_append, value_toDigits, value_zeros, List.length_replicate, Nat.add_zero]

/-- The point of a fraction stands between its digits, or a zero and more zeros stand in front of them. -/
theorem exists_positional_fraction {d : Decimal} (hexponent : d.exponent < 0) (hplace : d.pointPlace ≤ 16) :
    ∃ whole fraction, IsPositional d.positional.toList whole fraction ∧ value (whole ++ fraction) = d.digits ∧
      (fraction.length : Int) = -d.exponent := by
  have hdigits : ∀ c ∈ Nat.toDigits 10 d.digits, isDigit c = true := fun c => isDigit_of_mem_toDigits
  rw [Decimal.positional, if_neg (by omega)]
  rw [pointPlace_eq] at hplace ⊢
  split
  next hinside =>
    obtain ⟨p, hp⟩ := Int.eq_ofNat_of_zero_le hinside.le
    rw [hp, Int.toNat_natCast]
    have hpos : 0 < d.digits := by
      refine Nat.pos_of_ne_zero fun hzero => ?_
      have hlength : (Nat.toDigits 10 d.digits).length = 1 := by rw [hzero]; rfl
      omega
    refine ⟨(Nat.toDigits 10 d.digits).take p, (Nat.toDigits 10 d.digits).drop p,
      ⟨?_, wholeOK_of_head? ?_ ?_, ?_, ?_, ?_, ?_⟩, ?_, ?_⟩
    · simp [String.toList_append, Nat.toList_repr]
    · rw [Ne, List.take_eq_nil_iff]
      exact not_or.2 ⟨by omega, Nat.toDigits_ne_nil⟩
    · rw [List.head?_take, if_neg (by omega)]
      exact head?_toDigits_ne_zero hpos
    · exact fun hc => hdigits _ (List.mem_of_mem_take hc)
    · rw [List.length_take]
      omega
    · intro hnil
      rw [List.drop_eq_nil_iff] at hnil
      omega
    · exact fun hc => hdigits _ (List.mem_of_mem_drop hc)
    · rw [List.take_append_drop, value_toDigits]
    · rw [List.length_drop]
      omega
  next houtside =>
    obtain ⟨k, hk⟩ := Int.eq_ofNat_of_zero_le (Int.neg_nonneg_of_nonpos (Int.not_lt.1 houtside))
    rw [hk, Int.toNat_natCast]
    have hne : Nat.toDigits 10 d.digits ≠ [] := Nat.toDigits_ne_nil
    refine ⟨['0'], List.replicate k '0' ++ Nat.toDigits 10 d.digits,
      ⟨?_, rfl, isDigit_zeros (k := 1) _, by decide, by simp [hne], ?_⟩, ?_, ?_⟩
    · simp [Decimal.zeros, String.toList_append, Nat.toList_repr]
    · intro c hc
      obtain hc | hc := List.mem_append.1 hc
      · exact isDigit_zeros c hc
      · exact hdigits c hc
    · rw [← List.append_assoc, value_append, ← List.replicate_one, List.replicate_append_replicate, value_zeros,
        Nat.zero_mul, Nat.zero_add, value_toDigits]
    · rw [List.length_append, List.length_replicate]
      omega

/-- The characters spell a number that is not greater than `n` and has few digits in front of its point. -/
def SpellsAtMost (cs : List Char) (n : Nat) : Prop :=
  ∃ y, Spelled cs y ∧ value y.whole < UInt64.size ∧ y.decimal.AtMost n

section Layouts

variable {d : Decimal} {n : Nat} (negative : Bool) (hd : d.AtMost n)
include hd

theorem spellsAtMost_integer (hexponent : 0 ≤ d.exponent) (hplace : d.pointPlace ≤ 16) :
    SpellsAtMost (sign negative ++ (d.positional ++ ".0").toList) n := by
  obtain ⟨whole, hparts, hvalue⟩ := exists_positional_integer hexponent hplace
  refine ⟨_, hparts.spelled negative, value_lt_size (fun _ => hparts.wholeDigits) hparts.short, ?_⟩
  have hdigits : value (whole ++ ['0']) = d.digits * 10 ^ d.exponent.toNat * 10 := by
    rw [value_append, hvalue]
    rfl
  unfold Decimal.AtMost at hd ⊢
  rw [show (-d.exponent).toNat = 0 by omega, Nat.pow_zero, Nat.mul_one] at hd
  change value (whole ++ ['0']) * 10 ^ 0 ≤ n * 10 ^ 1
  omega

theorem spellsAtMost_fraction (hexponent : d.exponent < 0) (hplace : d.pointPlace ≤ 16) :
    SpellsAtMost (sign negative ++ d.positional.toList) n := by
  obtain ⟨whole, fraction, hparts, hvalue, hlength⟩ := exists_positional_fraction hexponent hplace
  have hdecimal : (⟨negative, whole, some fraction, none⟩ : Spelling).decimal = d := by
    change (⟨value (whole ++ fraction), 0 - fraction.length⟩ : Decimal) = d
    rw [hvalue, show (0 - fraction.length : Int) = d.exponent by omega]
  exact ⟨_, hparts.spelled negative, value_lt_size (fun _ => hparts.wholeDigits) hparts.short, hdecimal ▸ hd⟩

/-- A number with an exponent has one digit before its point, if it has a point. -/
theorem spellsAtMost_exponent : SpellsAtMost (sign negative ++ d.withExponent.toList) n := by
  have hdigits : ∀ c ∈ Nat.toDigits 10 d.digits, isDigit c = true := fun c => isDigit_of_mem_toDigits
  have hvalue := value_toDigits d.digits
  have hplace := pointPlace_eq d
  have htail := isTail_exponent (d.pointPlace - 1)
  have hmark : ((if d.pointPlace - 1 < 0 then "e-" else "e+") ++ (d.pointPlace - 1).natAbs.repr).toList =
      'e' :: (if d.pointPlace - 1 < 0 then '-' else '+') :: Nat.toDigits 10 (d.pointPlace - 1).natAbs := by
    rw [String.toList_append, Nat.toList_repr]
    split_ifs <;> rfl
  simp only [Decimal.withExponent, Nat.toList_repr]
  generalize (if d.pointPlace - 1 < 0 then "e-" else "e+") ++ (d.pointPlace - 1).natAbs.repr = mark at hmark
  match hds : Nat.toDigits 10 d.digits with
  | [] => exact absurd hds Nat.toDigits_ne_nil
  | [c] =>
    rw [hds] at hdigits hvalue hplace
    have hspelled := spelled_whole negative (wholeOK_singleton c) hdigits htail
    have hdecimal : (⟨negative, [c], none, some (d.pointPlace - 1)⟩ : Spelling).decimal = d := by
      change (⟨value [c], d.pointPlace - 1 - 0⟩ : Decimal) = d
      rw [hvalue, show d.pointPlace - 1 - 0 = d.exponent by rw [hplace]; simp]
    exact ⟨_, by simpa [hmark] using hspelled, value_lt_size hdigits (by simp), hdecimal ▸ hd⟩
  | c :: c' :: cs =>
    rw [hds] at hdigits hvalue hplace
    obtain ⟨hc, hcs⟩ := List.forall_mem_cons.1 hdigits
    have hwhole : ∀ a ∈ [c], isDigit a = true := List.forall_mem_singleton.2 hc
    have hspelled := spelled_fraction negative (wholeOK_singleton c) hwhole htail
      (List.cons_ne_nil c' cs) hcs
    have hdecimal : (⟨negative, [c], some (c' :: cs), some (d.pointPlace - 1)⟩ : Spelling).decimal = d := by
      change (⟨value (c :: c' :: cs), d.pointPlace - 1 - (c' :: cs).length⟩ : Decimal) = d
      rw [hvalue, show d.pointPlace - 1 - (c' :: cs).length = d.exponent by rw [hplace]; simp; omega]
    exact ⟨_, by simpa [hmark] using hspelled, value_lt_size hwhole (by simp), hdecimal ▸ hd⟩

end Layouts

end Spelling

end Json

/-! ### The shortest decimal -/

namespace Binary

/-- A decimal that reads back as the number is not beyond the upper end of its interval. -/
theorem le_of_onGrid? {x : Binary} {tie : Tie} {k : Int} {d : Nat} (h : x.onGrid? tie k = some d) :
    d * (2 ^ (2 - x.exponent).toNat * 10 ^ k.toNat) ≤
      (4 * x.mantissa + 2) * (2 ^ (x.exponent - 2).toNat * 10 ^ (-k).toNat) := by
  have hinside {p : Bool} {low e g high : Nat} (hin : (if p then decide (low ≤ e * g) && decide (e * g ≤ high)
      else decide (low < e * g) && decide (e * g < high)) = true) : e * g ≤ high := by
    split at hin <;> simp only [Bool.and_eq_true, decide_eq_true_eq] at hin <;> omega
  simp only [onGrid?] at h
  split at h
  next => cases h
  next hlow _ =>
    cases h
    exact hinside hlow
  next _ hhigh =>
    cases h
    exact hinside hhigh
  next hlow hhigh =>
    -- both candidates are inside, so it does not matter which one is taken
    split at h
    · cases h
      exact hinside hlow
    split at h
    · cases h
      exact hinside hhigh
    cases tie with
    | even =>
      simp only [Option.some_inj] at h
      split at h <;> subst h
      · exact hinside hlow
      · exact hinside hhigh
    | up =>
      cases h
      exact hinside hhigh

theorem le_firstOnGrid (x : Binary) (tie : Tie) (n : Nat) (k : Int) :
    (x.firstOnGrid tie n k).digits * (2 ^ (2 - x.exponent).toNat * 10 ^ (x.firstOnGrid tie n k).exponent.toNat) ≤
      (4 * x.mantissa + 2) * (2 ^ (x.exponent - 2).toNat * 10 ^ (-(x.firstOnGrid tie n k).exponent).toNat) := by
  induction n generalizing k with
  | zero => simp [firstOnGrid]
  | succ n ih =>
    rw [firstOnGrid]
    split
    next d hd => exact le_of_onGrid? hd
    next => exact ih (k - 1)

theorem atMost_shortest {x : Binary} {tie : Tie} {n : Nat}
    (h : (4 * x.mantissa + 2) * 2 ^ (x.exponent - 2).toNat ≤ n * 2 ^ (2 - x.exponent).toNat) :
    (x.shortest tie).AtMost n := by
  rw [shortest]
  split
  · exact Nat.zero_le _
  · have hle := x.le_firstOnGrid tie 18 (x.decade + 1)
    generalize x.firstOnGrid tie 18 (x.decade + 1) = d at hle
    refine Nat.le_of_mul_le_mul_left ?_ (Nat.pow_pos (show 0 < 2 by decide) : 0 < 2 ^ (2 - x.exponent).toNat)
    calc 2 ^ (2 - x.exponent).toNat * (d.digits * 10 ^ d.exponent.toNat)
        = d.digits * (2 ^ (2 - x.exponent).toNat * 10 ^ d.exponent.toNat) := by ring
      _ ≤ (4 * x.mantissa + 2) * (2 ^ (x.exponent - 2).toNat * 10 ^ (-d.exponent).toNat) := hle
      _ = (4 * x.mantissa + 2) * 2 ^ (x.exponent - 2).toNat * 10 ^ (-d.exponent).toNat := by ring
      _ ≤ n * 2 ^ (2 - x.exponent).toNat * 10 ^ (-d.exponent).toNat := Nat.mul_le_mul_right _ h
      _ = 2 ^ (2 - x.exponent).toNat * (n * 10 ^ (-d.exponent).toNat) := by ring

end Binary

namespace Double

open Float.Model Float.Model.UnpackedFloat

theorem exponent_ne_of_isFinite {x : Float} (hx : x.isFinite = true) : x.toBits.toNat / 2 ^ 52 % 2 ^ 11 ≠ 2047 := by
  intro hexponent
  have hbits : @unpackExponent .binary64 x.toBits.toBitVec = -1#11 := by
    apply BitVec.eq_of_toNat_eq
    simp only [unpackExponent, BitVec.toNat_cast, BitVec.extractLsb_toNat, Nat.shiftRight_eq_div_pow]
    exact hexponent
  have hinfinite : x.toModel.unpack.isFinite = false := by
    change (UnpackedFloat.unpack .binary64 x.toBits.toBitVec).isFinite = false
    rw [UnpackedFloat.unpack]
    simp only [hbits, if_true]
    split <;> rfl
  have hfinite : x.toModel.unpack.isFinite = true := hx
  rw [hinfinite] at hfinite
  cases hfinite

theorem upper_le_halfway {m : Nat} {e : Int} (hm : m < 2 ^ 53) (he : e ≤ 971) (hlast : e = 971 → m + 1 < 2 ^ 53) :
    (4 * m + 2) * 2 ^ (e - 2).toNat ≤ halfway * 2 ^ (2 - e).toNat := by
  have hsplit : halfway = (2 ^ 55 - 6) * 2 ^ (top - scale - 2) := by
    have hexponent : top - scale - 1 = top - scale - 2 + 1 := by
      rw [top_eq, scale_eq]
    rw [halfway, hexponent, show 2 ^ 55 - 6 = (2 ^ 54 - 3) * 2 from rfl, Nat.mul_assoc, ← Nat.pow_succ']
  have hscale : ((top - scale : Nat) : Int) = 971 := by
    rw [top_eq, scale_eq]
    rfl
  have hhalfway : (4 * m + 2) * 2 ^ (e - 2).toNat ≤ halfway := by
    rw [hsplit]
    obtain heq | hne := eq_or_ne e 971
    · have hm' := hlast heq
      rw [show (e - 2).toNat = top - scale - 2 by omega]
      exact Nat.mul_le_mul_right _ (by omega)
    · calc (4 * m + 2) * 2 ^ (e - 2).toNat
          ≤ 2 ^ 55 * 2 ^ (top - scale - 3) := Nat.mul_le_mul (by omega) (Nat.pow_le_pow_right (by decide) (by omega))
        _ = 2 ^ 54 * 2 ^ (top - scale - 2) := by
          rw [← Nat.pow_add, ← Nat.pow_add]
          congr 1
          omega
        _ ≤ (2 ^ 55 - 6) * 2 ^ (top - scale - 2) := Nat.mul_le_mul_right _ (by decide)
  exact hhalfway.trans (Nat.le_mul_of_pos_right _ (Nat.two_pow_pos _))

/-- The greatest finite float, up to its sign. -/
def greatest : Nat := 0x7FEFFFFFFFFFFFFF

theorem ofFloat_bounds {x : Float} (hx : x.isFinite = true) (hgreatest : x.toBits.toNat % 2 ^ 63 ≠ greatest) :
    (Binary.ofFloat x).mantissa < 2 ^ 53 ∧ (Binary.ofFloat x).exponent ≤ 971 ∧
      ((Binary.ofFloat x).exponent = 971 → (Binary.ofFloat x).mantissa + 1 < 2 ^ 53) := by
  have hexponent := exponent_ne_of_isFinite hx
  rw [greatest] at hgreatest
  simp only [Binary.ofFloat, Nat.pow_eq]
  split_ifs <;> dsimp only <;> omega

/-- Any other finite float has its shortest decimal below the middle of the two greatest. -/
theorem atMost_ofFloat {x : Float} (hx : x.isFinite = true) (hgreatest : x.toBits.toNat % 2 ^ 63 ≠ greatest)
    (tie : Tie) : ((Binary.ofFloat x).shortest tie).AtMost halfway := by
  obtain ⟨hm, he, hlast⟩ := ofFloat_bounds hx hgreatest
  exact Binary.atMost_shortest (upper_le_halfway hm he hlast)

end Double

namespace Json

open Double

theorem spellsAtMost_chars {x : Float} (hx : x.isFinite = true) {n : Nat}
    (hbound : ((Binary.ofFloat x).shortest .even).AtMost n) : Spelling.SpellsAtMost (Number.float x).chars n := by
  have hsign (t : String) : (if FloatText.isNegative x then "-" ++ t else t).toList =
      Spelling.sign (FloatText.isNegative x) ++ t.toList := by
    cases FloatText.isNegative x with
    | true => rw [if_pos rfl, String.toList_append]; rfl
    | false => rfl
  rw [Number.chars, if_pos hx, FloatText.json]
  simp only [hsign]
  generalize (Binary.ofFloat x).shortest .even = d at hbound
  split
  next hinteger =>
    simp only [Bool.and_eq_true, decide_eq_true_eq] at hinteger
    exact Spelling.spellsAtMost_integer _ hbound hinteger.1 hinteger.2
  next hinteger =>
    split
    next hfraction =>
      simp only [Bool.and_eq_true, decide_eq_true_eq] at hinteger hfraction
      exact Spelling.spellsAtMost_fraction _ hbound (by omega) hfraction.2
    next => exact Spelling.spellsAtMost_exponent _ hbound

theorem exists_readsAs {n : Number} (hne : n.chars ≠ []) (hnumeral : n.chars.all Scan.isNumeral = true)
    (hsome : (Number.ofChars? n.chars).isSome = true) : ∃ m, n.ReadsAs m := by
  obtain ⟨m, hm⟩ := Option.isSome_iff_exists.1 hsome
  exact ⟨m, hne, fun hc => List.all_eq_true.1 hnumeral _ hc, hm⟩

/-- A finite float is read as some number, though not always as itself. -/
theorem exists_readsAs_float {x : Float} (hx : x.isFinite = true) : ∃ m, (Number.float x).ReadsAs m := by
  by_cases hgreatest : x.toBits.toNat % 2 ^ 63 = greatest
  · -- its decimal is beyond half-way, but its text is known
    have hbits : x.toBits.toNat = 0x7fefffffffffffff ∨ x.toBits.toNat = 0xffefffffffffffff := by
      have hlt : x.toBits.toNat < 2 ^ 64 := x.toBits.toNat_lt
      rw [greatest] at hgreatest
      omega
    obtain rfl | rfl : x = Float.ofBits 0x7fefffffffffffff ∨ x = Float.ofBits 0xffefffffffffffff :=
      hbits.imp (fun h => Float.toBits_inj.1 (UInt64.toNat_inj.1 h)) fun h => Float.toBits_inj.1 (UInt64.toNat_inj.1 h)
    · exact exists_readsAs (by decide +kernel) (by decide +kernel) (by decide +kernel)
    · exact exists_readsAs (by decide +kernel) (by decide +kernel) (by decide +kernel)
  · obtain ⟨y, hspelled, hwhole, hy⟩ := spellsAtMost_chars hx (atMost_ofFloat hx hgreatest .even)
    obtain ⟨m, hm⟩ := Option.isSome_iff_exists.1 (Spelling.isSome_number? hwhole hy)
    refine ⟨m, hspelled.nonempty, hspelled.numeral, ?_⟩
    rw [Number.ofChars?, hspelled.spelled, Option.bind_some, hm]

end Json

end DataBinding
