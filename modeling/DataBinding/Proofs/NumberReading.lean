import DataBinding.Proofs.JsonText
import DataBinding.Proofs.Rounding

/-!
# Numbers that are accepted

A number with a point or an exponent is read as a significand of one word times a power of ten, and it is refused if
their product is no double any more. Three roundings make the product, so it is not the number itself that decides:
`nearest_product_lt` says that no number up to the middle between the two greatest doubles is refused. The digits that
do not fit into the word make the number smaller (`exists_significand`), so such a number is accepted however many
digits it has (`isSome_number?`). `spelled_whole` and `spelled_fraction` say which characters spell a number.
-/

namespace DataBinding

/-! ### Products with powers of ten -/

namespace Double

open Float.Model Float.Model.UnpackedFloat

theorem isInf_of_denotes {x : Float} {z : Int} (h : Denotes x z) : x.isInf = false := by
  change x.toModel.unpack.isInf = false
  cases h with
  | zero h => rw [h]; rfl
  | normal h => rw [h]; rfl

theorem two_pow_scale : 2 ^ 1024 * 2 ^ scale = 2 ^ 53 * 2 ^ top := by
  rw [← Nat.pow_add, ← Nat.pow_add]
  congr 1
  rw [scale_eq, top_eq]

/-- The number half-way between the greatest double and the one before it. -/
@[irreducible] def halfway : Nat := (2 ^ 54 - 3) * 2 ^ (top - scale - 1)

/-- A word times a power of ten that is not beyond half-way is not rounded beyond the doubles. -/
theorem nearest_product_lt {s e : Nat} (hs : s < 2 ^ 64) (he : e ≤ 308) (h : s * 10 ^ e ≤ halfway) :
    nearest (nearest s * nearest (10 ^ e)) < 2 ^ 1024 := by
  have hmono {t p : Nat} (ht : s ≤ t) (hp : e ≤ p) :
      nearest (nearest s * nearest (10 ^ e)) ≤ nearest (nearest t * nearest (10 ^ p)) :=
    nearest_mono (Nat.mul_le_mul (nearest_mono ht) (nearest_mono (Nat.pow_le_pow_right (by decide) hp)))
  obtain hsmall | hlarge := Nat.lt_or_ge e 289
  · exact (hmono (p := 288) hs.le (by omega)).trans_lt (by decide +kernel)
  · -- above this power not every word is left
    have hwords : ∀ i < 20,
        nearest (nearest (halfway / 10 ^ (289 + i)) * nearest (10 ^ (289 + i))) < 2 ^ 1024 := by
      decide +kernel
    obtain ⟨i, rfl⟩ := Nat.exists_eq_add_of_le hlarge
    have hword : s ≤ halfway / 10 ^ (289 + i) := (Nat.le_div_iff_mul_le (Nat.pow_pos (by decide))).2 h
    exact (hmono hword le_rfl).trans_lt (hwords i (by omega))

theorem isInf_mul_power {s e : Nat} (hpos : s ≠ 0) (hs : s < 2 ^ 64) (he : e ≤ 308) (h : s * 10 ^ e ≤ halfway) :
    (Float.ofNat s * Float.ofScientific 1 false e).isInf = false := by
  have hscale : 0 < 2 ^ scale := Nat.two_pow_pos scale
  have hrange {n : Nat} (h : nearest n < 2 ^ 1024) : nearest n * 2 ^ scale < 2 ^ 53 * 2 ^ top := by
    rw [← two_pow_scale]
    exact Nat.mul_lt_mul_of_pos_right h hscale
  have hone {n : Nat} (h : n ≠ 0) : 2 ^ scale ≤ nearest n * 2 ^ scale :=
    Nat.le_mul_of_pos_left _ (nearest_mono (Nat.pos_of_ne_zero h) : nearest 1 ≤ nearest n)
  have hpower : nearest (1 * 10 ^ e) < 2 ^ 1024 := calc
    nearest (1 * 10 ^ e)
      ≤ nearest halfway := nearest_mono ((Nat.mul_le_mul_right _ (Nat.pos_of_ne_zero hpos)).trans h)
    _ < 2 ^ 1024 := by decide +kernel
  have hword : nearest s < 2 ^ 1024 := calc
    nearest s ≤ nearest (2 ^ 64) := nearest_mono hs.le
    _ < 2 ^ 1024 := by decide +kernel
  have hx := denotes_ofNat (hrange hword)
  have hy := denotes_ofScientific Nat.one_ne_zero (he.trans (by decide)) (hrange hpower)
  rw [Nat.one_mul] at hy
  have hproduct : nearest (nearest s * 2 ^ scale * (nearest (10 ^ e) * 2 ^ scale)) =
      nearest (nearest s * nearest (10 ^ e)) * 2 ^ scale * 2 ^ scale := by
    rw [Nat.mul_mul_mul_comm, ← Nat.mul_assoc, nearest_mul_two_pow, nearest_mul_two_pow]
  obtain ⟨v, hv, -⟩ := denotes_mul hx hy (hone hpos) (hone (by positivity)) (by
    rw [hproduct]
    exact Nat.mul_lt_mul_of_pos_right (hrange (nearest_product_lt hs he h)) hscale)
  exact isInf_of_denotes hv

end Double

/-! ### Digits -/

/-- The decimal is no greater than the natural number. -/
def Decimal.AtMost (d : Decimal) (n : Nat) : Prop :=
  d.digits * 10 ^ d.exponent.toNat ≤ n * 10 ^ (-d.exponent).toNat

/-- A decimal without its last digits is smaller. -/
theorem Decimal.AtMost.shift {d : Decimal} {n s j : Nat} (h : d.AtMost n) (hs : s * 10 ^ j ≤ d.digits)
    (hnonneg : 0 ≤ d.exponent + j) : s * 10 ^ (d.exponent + j).toNat ≤ n := by
  unfold AtMost at h
  obtain hpos | hneg := Int.le_total 0 d.exponent
  · rw [show (-d.exponent).toNat = 0 by omega, Nat.pow_zero, Nat.mul_one] at h
    calc s * 10 ^ (d.exponent + j).toNat
        = s * 10 ^ j * 10 ^ d.exponent.toNat := by
          rw [show (d.exponent + j).toNat = j + d.exponent.toNat by omega, Nat.pow_add, Nat.mul_assoc]
      _ ≤ d.digits * 10 ^ d.exponent.toNat := Nat.mul_le_mul_right _ hs
      _ ≤ n := h
  · rw [show d.exponent.toNat = 0 by omega, Nat.pow_zero, Nat.mul_one] at h
    refine Nat.le_of_mul_le_mul_right ?_ (Nat.pow_pos (show 0 < 10 by decide) : 0 < 10 ^ (-d.exponent).toNat)
    calc s * 10 ^ (d.exponent + j).toNat * 10 ^ (-d.exponent).toNat
        = s * 10 ^ j := by
          rw [Nat.mul_assoc, ← Nat.pow_add, show (d.exponent + j).toNat + (-d.exponent).toNat = j by omega]
      _ ≤ n * 10 ^ (-d.exponent).toNat := hs.trans h

namespace Numeral

theorem value_append (ds es : List Char) : value (ds ++ es) = value ds * 10 ^ es.length + value es := by
  induction es using List.reverseRecOn with
  | nil => simp [value]
  | append_singleton es c ih =>
    have hstep (cs : List Char) : value (cs ++ [c]) = 10 * value cs + digitValue c := by simp [value]
    rw [← List.append_assoc, hstep, ih, hstep, List.length_append, List.length_singleton, Nat.pow_succ]
    ring

theorem value_cons (c : Char) (cs : List Char) : value (c :: cs) = digitValue c * 10 ^ cs.length + value cs := by
  have hone : value [c] = digitValue c := by simp [value]
  rw [← List.singleton_append, value_append, hone]

theorem digitValue_lt {c : Char} (h : isDigit c = true) : digitValue c < 10 := by
  simp only [isDigit, Bool.and_eq_true, decide_eq_true_eq] at h
  have hle : c.toNat ≤ '9'.toNat := h.2
  change c.toNat - 48 < 10
  change c.toNat ≤ 57 at hle
  omega

theorem value_lt {ds : List Char} (h : ∀ c ∈ ds, isDigit c = true) : value ds < 10 ^ ds.length := by
  induction ds with
  | nil => decide
  | cons d ds ih =>
    have hdigit := digitValue_lt (h d List.mem_cons_self)
    have hrest := ih fun c hc => h c (List.mem_cons_of_mem _ hc)
    calc value (d :: ds)
        < digitValue d * 10 ^ ds.length + 10 ^ ds.length := by rw [value_cons]; omega
      _ = (digitValue d + 1) * 10 ^ ds.length := by ring
      _ ≤ 10 * 10 ^ ds.length := Nat.mul_le_mul_right _ hdigit
      _ = 10 ^ (d :: ds).length := by rw [List.length_cons, Nat.pow_succ']

theorem value_zeros (n : Nat) : value (List.replicate n '0') = 0 := by
  induction n with
  | zero => rfl
  | succ n ih =>
    rw [List.replicate_succ, value_cons, ih]
    simp [digitValue]

end Numeral

namespace Json

namespace Spelling

open Numeral Double

/-- The digits that are gathered are the first ones, and they fit in a word. -/
theorem exists_gather {s : Nat} (hs : s < UInt64.size) (cs : List Char) : ∃ taken,
    cs = taken ++ (gather s cs).2 ∧ (gather s cs).1 < UInt64.size ∧
      (gather s cs).1 = s * 10 ^ taken.length + value taken := by
  induction cs generalizing s with
  | nil => exact ⟨[], rfl, hs, by simp [gather, value]⟩
  | cons c cs ih =>
    rw [gather]
    split_ifs with ht
    · obtain ⟨taken, hcs, hlt, hvalue⟩ := ih ht
      refine ⟨c :: taken, congrArg (c :: ·) hcs, hlt, ?_⟩
      rw [hvalue, value_cons, List.length_cons, Nat.pow_succ]
      ring
    · exact ⟨[], rfl, hs, by simp [value]⟩

/-- Digits that fit in a word are all gathered. -/
theorem gather_of_lt {s : Nat} {cs : List Char} (h : s * 10 ^ cs.length + value cs < UInt64.size) :
    gather s cs = (s * 10 ^ cs.length + value cs, []) := by
  induction cs generalizing s with
  | nil => simp [gather, value]
  | cons c cs ih =>
    have hvalue : s * 10 ^ (c :: cs).length + value (c :: cs) =
        (10 * s + digitValue c) * 10 ^ cs.length + value cs := by
      rw [value_cons, List.length_cons, Nat.pow_succ]
      ring
    rw [hvalue] at h ⊢
    have hle : 10 * s + digitValue c ≤ (10 * s + digitValue c) * 10 ^ cs.length :=
      Nat.le_mul_of_pos_right _ (by positivity)
    simp only [gather]
    rw [if_pos (by omega), ih h]

/-- A word is scaled up to half-way between the two greatest doubles, and scaled down without an end. -/
theorem isSome_scale? {s : Nat} {e : Int} (hs : s < UInt64.size) (h : s * 10 ^ e.toNat ≤ halfway) :
    (scale? s e).isSome := by
  obtain rfl | hpos := Nat.eq_zero_or_pos s
  · rfl
  have hpower : e ≤ 308 := by
    by_contra hlarge
    have hlt : halfway < 10 ^ 309 := by decide +kernel
    have hle (p : Nat) (hp : p ≤ e.toNat) : 10 ^ p ≤ halfway := calc
      10 ^ p ≤ 10 ^ e.toNat := Nat.pow_le_pow_right (by decide) hp
      _ ≤ s * 10 ^ e.toNat := Nat.le_mul_of_pos_left _ hpos
      _ ≤ halfway := h
    exact absurd (hle 309 (by omega)) (Nat.not_le.2 hlt)
  have hfinite : 0 ≤ e → (Float.ofNat s * power e.natAbs).isInf = false := by
    intro he
    rw [show e.natAbs = e.toNat by omega]
    exact isInf_mul_power hpos.ne' hs (by omega) h
  simp only [scale?]
  rw [if_neg hpos.ne', if_neg (by omega)]
  split
  next he => simp [hfinite he]
  split
  · rfl
  split <;> rfl

/-- The number that is spelled, without its sign. -/
def decimal (x : Spelling) : Decimal :=
  let fraction := x.fraction?.getD []
  ⟨value (x.whole ++ fraction), x.exponent?.getD 0 - fraction.length⟩

/-- The digits that are not gathered any more only make the number smaller. -/
theorem exists_significand {x : Spelling} (hwhole : value x.whole < UInt64.size) : ∃ j : Nat,
    x.significand.1 < UInt64.size ∧ x.significand.1 * 10 ^ j ≤ x.decimal.digits ∧
      x.significand.2 = x.decimal.exponent + j := by
  have hgather : gather 0 x.whole = (value x.whole, []) := by
    have hall := @gather_of_lt 0 x.whole (by simpa using hwhole)
    rwa [Nat.zero_mul, Nat.zero_add] at hall
  obtain ⟨taken, hfraction, hlt, hvalue⟩ := exists_gather hwhole (x.fraction?.getD [])
  refine ⟨(gather (value x.whole) (x.fraction?.getD [])).2.length, ?_, ?_, ?_⟩
  · simpa only [significand, hgather] using hlt
  · simp only [significand, hgather, decimal]
    generalize gather (value x.whole) (x.fraction?.getD []) = g at hfraction hvalue
    rw [hfraction, hvalue, ← List.append_assoc, value_append (x.whole ++ taken), value_append x.whole]
    exact Nat.le_add_right _ _
  · have hlength := congrArg List.length hfraction
    rw [List.length_append] at hlength
    simp only [significand, hgather, decimal, List.length_nil]
    omega

/-- A number is accepted unless it is near the end of the doubles or beyond it. -/
theorem isSome_number? {x : Spelling} (hwhole : value x.whole < UInt64.size) (hx : x.decimal.AtMost halfway) :
    x.number?.isSome := by
  obtain ⟨j, hword, hdigits, hexponent⟩ := exists_significand hwhole
  have hscale : (scale? x.significand.1 x.significand.2).isSome := by
    refine isSome_scale? hword ?_
    obtain hneg | hnonneg := Int.lt_or_le x.significand.2 0
    · rw [show x.significand.2.toNat = 0 by omega, Nat.pow_zero, Nat.mul_one]
      exact hword.le.trans (by decide +kernel)
    · rw [hexponent] at hnonneg ⊢
      exact hx.shift hdigits hnonneg
  simp only [number?]
  split_ifs <;> simp [hscale]

/-! ### Spelled numbers -/

/-- The characters spell a number with these parts, and they stay together in a text. -/
structure Spelled (cs : List Char) (x : Spelling) : Prop where
  nonempty : cs ≠ []
  numeral {c : Char} : c ∈ cs → Scan.isNumeral c = true
  spelled : ofChars? cs = some x

/-- What may follow the digits of a number. -/
structure IsTail (tail : List Char) (e : Option Int) : Prop where
  numeral {c : Char} : c ∈ tail → Scan.isNumeral c = true
  ends {c : Char} : tail.head? = some c → isDigit c = false ∧ c ≠ '.'
  spelled : exponentOf? tail = some e

theorem takeWhile_digits {ds rest : List Char} (hds : ∀ c ∈ ds, isDigit c = true)
    (hrest : ∀ c, rest.head? = some c → isDigit c = false) :
    (ds ++ rest).takeWhile isDigit = ds ∧ (ds ++ rest).dropWhile isDigit = rest := by
  rw [List.takeWhile_append_of_pos hds, List.dropWhile_append_of_pos hds]
  cases rest with
  | nil => simp
  | cons c cs => simp [hrest c rfl]

/-- How a number starts, negative or not. -/
def sign : Bool → List Char
  | true => ['-']
  | false => []

theorem isNumeral_sign {negative : Bool} {c : Char} (h : c ∈ sign negative) : Scan.isNumeral c = true := by
  cases negative with
  | true =>
    obtain rfl := List.mem_singleton.1 h
    rfl
  | false => cases h

/-- The sign and the whole digits of a number are found; what follows them decides whether there is a fraction. -/
theorem ofChars?_sign (negative : Bool) {whole rest : List Char} (hok : wholeOK whole = true)
    (hwhole : ∀ c ∈ whole, isDigit c = true) (hrest : ∀ c, rest.head? = some c → isDigit c = false) :
    ofChars? (sign negative ++ (whole ++ rest)) =
      if rest.head? = some '.' then
        let fraction := rest.tail.takeWhile isDigit
        if fraction.isEmpty then none
        else (exponentOf? (rest.tail.dropWhile isDigit)).map fun e => ⟨negative, whole, some fraction, e⟩
      else (exponentOf? rest).map fun e => ⟨negative, whole, none, e⟩ := by
  obtain ⟨htake, hdrop⟩ := takeWhile_digits hwhole hrest
  have hsign : ∀ r, whole ++ rest ≠ '-' :: r := by
    intro r hr
    cases whole with
    | nil => cases hok
    | cons d ds =>
      obtain ⟨rfl, -⟩ := List.cons.inj hr
      cases hwhole '-' List.mem_cons_self
  have hpoint : (∀ r, rest ≠ '.' :: r) → rest.head? ≠ some '.' := by
    intro hnot hhead
    obtain ⟨r, hr⟩ := List.head?_eq_some_iff.1 hhead
    exact hnot r hr
  cases negative with
  | true =>
    simp only [ofChars?, sign, List.singleton_append, htake, hdrop, hok, Bool.not_true, Bool.false_eq_true, if_false]
    split
    next r => simp
    next hnot => rw [if_neg (hpoint hnot)]
  | false =>
    unfold ofChars?
    split
    next negative body hbody =>
      split at hbody
      next r hr => exact absurd hr (hsign r)
      next =>
        obtain ⟨rfl, rfl⟩ := Prod.mk.inj hbody
        simp only [sign, List.nil_append, htake, hdrop, hok, Bool.not_true, Bool.false_eq_true, if_false]
        split
        next r => simp
        next hnot => rw [if_neg (hpoint hnot)]

section Spelled

variable (negative : Bool) {whole fraction tail : List Char} {e : Option Int} (hok : wholeOK whole = true)
  (hwhole : ∀ c ∈ whole, isDigit c = true) (htail : IsTail tail e)
include hok hwhole htail

theorem spelled_whole : Spelled (sign negative ++ (whole ++ tail)) ⟨negative, whole, none, e⟩ := by
  refine ⟨?_, ?_, ?_⟩
  · intro hnil
    obtain ⟨rfl, -⟩ := List.append_eq_nil_iff.1 (List.append_eq_nil_iff.1 hnil).2
    cases hok
  · intro c hc
    obtain hc | hc := List.mem_append.1 hc
    · exact isNumeral_sign hc
    obtain hc | hc := List.mem_append.1 hc
    · simp [Scan.isNumeral, hwhole c hc]
    · exact htail.numeral hc
  · rw [ofChars?_sign negative hok hwhole fun c hc => (htail.ends hc).1]
    split
    next hhead => exact absurd rfl (htail.ends hhead).2
    next => simp [htail.spelled]

theorem spelled_fraction (hne : fraction ≠ []) (hfraction : ∀ c ∈ fraction, isDigit c = true) :
    Spelled (sign negative ++ (whole ++ '.' :: (fraction ++ tail))) ⟨negative, whole, some fraction, e⟩ := by
  refine ⟨by simp, ?_, ?_⟩
  · intro c hc
    obtain hc | hc := List.mem_append.1 hc
    · exact isNumeral_sign hc
    obtain hc | hc := List.mem_append.1 hc
    · simp [Scan.isNumeral, hwhole c hc]
    obtain rfl | hc := List.mem_cons.1 hc
    · rfl
    obtain hc | hc := List.mem_append.1 hc
    · simp [Scan.isNumeral, hfraction c hc]
    · exact htail.numeral hc
  · obtain ⟨htake, hdrop⟩ := takeWhile_digits hfraction fun c hc => (htail.ends hc).1
    have hpoint : ∀ c, ('.' :: (fraction ++ tail)).head? = some c → isDigit c = false := by
      rintro c ⟨⟩
      rfl
    rw [ofChars?_sign negative hok hwhole hpoint]
    simp [htake, hdrop, hne, htail.spelled]

end Spelled

theorem isTail_nil : IsTail [] none := by
  refine ⟨?_, ?_, rfl⟩
  · intro c hc
    cases hc
  · intro c hc
    cases hc

/-- An exponent with its sign. -/
theorem isTail_exponent (e : Int) :
    IsTail ('e' :: (if e < 0 then '-' else '+') :: Nat.toDigits 10 e.natAbs) (some e) := by
  have hdigits : ∀ c ∈ Nat.toDigits 10 e.natAbs, isDigit c = true := fun c => isDigit_of_mem_toDigits
  refine ⟨?_, ?_, ?_⟩
  · intro c hc
    obtain rfl | hc := List.mem_cons.1 hc
    · rfl
    obtain rfl | hc := List.mem_cons.1 hc
    · split_ifs <;> rfl
    · simp [Scan.isNumeral, hdigits c hc]
  · rintro c ⟨⟩
    exact ⟨rfl, by decide⟩
  · have hall : (Nat.toDigits 10 e.natAbs).all isDigit = true := List.all_eq_true.2 hdigits
    have hne : Nat.toDigits 10 e.natAbs ≠ [] := Nat.toDigits_ne_nil
    have hmap (cs : List Char) : exponentOf? ('e' :: cs) = (Numeral.exponent? ('e' :: cs)).map some := rfl
    rw [hmap]
    by_cases he : e < 0
    · simp [he, Numeral.exponent?, splitSign, hall, hne, value_toDigits, abs_of_neg he]
    · simp [he, Numeral.exponent?, splitSign, hall, hne, value_toDigits]
      omega

end Spelling

end Json

end DataBinding
