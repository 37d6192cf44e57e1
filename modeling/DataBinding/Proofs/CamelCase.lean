import Mathlib
import DataBinding.Attribute

/-!
# Camel case

The pass that turns a name to camel case raises a character if a separator came before it, unless nothing was written
yet. Once something was written it is in one of two states, and what it goes on to write is told by the parts into which
separators divide the rest of the name (`PropertyName.camelFrom_of_ne_nil`): all parts are raised, except for the first
one if that goes on a part already begun. Empty parts add nothing, so a whole name becomes its first segment followed by
the others raised (`PropertyName.camelFrom_nil`). Separators are dropped, and the upper case of any other character has
none (`PropertyName.not_isSeparator_of_mem_upperCase`), so none is left.
-/

namespace DataBinding

/-! ### Upper case -/

namespace Text

set_option maxRecDepth 2000 in
/-- No expansion has a code point of a separator. -/
theorem upperCaseExpansions_avoid : ∀ e ∈ upperCaseExpansions, ∀ m ∈ e.2, m ≠ 0x2d ∧ m ≠ 0x5f := by decide

set_option maxRecDepth 2000 in
/-- No run is moved to where the code point of a separator is. -/
theorem upperCaseRuns_avoid : ∀ r ∈ upperCaseRuns, ∀ s ∈ [0x2d, 0x5f],
    s < (r.1 : Int) + r.2.2.2 ∨ (r.2.1 : Int) + r.2.2.2 < s := by decide

theorem eq_of_mem_upperCasePoints {n m : Nat} (hm : m = 0x2d ∨ m = 0x5f) (h : m ∈ upperCasePoints n) : n = m := by
  unfold upperCasePoints at h
  split at h
  case h_1 ms hlookup =>
    obtain ⟨before, after, htable, -⟩ := List.lookup_eq_some_iff.1 hlookup
    have havoid := upperCaseExpansions_avoid (n, ms) (by rw [htable]; exact List.mem_append_right _ List.mem_cons_self)
    have := havoid m h
    omega
  case h_2 =>
    split at h
    case h_1 r hfind =>
      have havoid := upperCaseRuns_avoid r (List.mem_of_find?_eq_some hfind) m (by simpa using mod_cast hm)
      have hrange := List.find?_some hfind
      simp only [Bool.and_eq_true, decide_eq_true_eq] at hrange
      rw [List.mem_singleton] at h
      omega
    case h_2 => exact (List.mem_singleton.1 h).symm

end Text

namespace PropertyName

theorem isSeparator_iff {c : Char} : isSeparator c = true ↔ c.toNat = 0x2d ∨ c.toNat = 0x5f := by
  have h (d : Char) : c = d ↔ c.toNat = d.toNat := Char.toNat_inj.symm
  rw [isSeparator, Bool.or_eq_true, beq_iff_eq, beq_iff_eq, h, h]
  rfl

/-- The upper case of a character that is no separator has none. -/
theorem not_isSeparator_of_mem_upperCase {c d : Char} (hc : isSeparator c = false) (hd : d ∈ Text.upperCase c) :
    isSeparator d = false := by
  obtain ⟨m, hm, rfl⟩ := List.mem_map.1 hd
  by_contra hsep
  rw [Bool.not_eq_false, isSeparator_iff, Char.toNat_ofNat] at hsep
  split at hsep
  case isTrue =>
    rw [← Text.eq_of_mem_upperCasePoints hsep hm, ← isSeparator_iff, hc] at hsep
    cases hsep
  case isFalse => omega

/-! ### Segments -/

/-- What stands between separators, without the empty ones. -/
def segments (cs : List Char) : List (List Char) := (cs.splitOnP isSeparator).filter (!·.isEmpty)

/-- The part with the upper case of its first character. -/
def raised : List Char → List Char
  | [] => []
  | c :: cs => Text.upperCase c ++ cs

/-- The first part as it is, followed by all others raised. -/
def joined : List (List Char) → List Char
  | [] => []
  | part :: parts => part ++ parts.flatMap raised

theorem flatMap_raised_filter (parts : List (List Char)) :
    (parts.filter (!·.isEmpty)).flatMap raised = parts.flatMap raised := by
  induction parts with
  | nil => rfl
  | cons part parts ih =>
    cases part with
    | nil => simpa [raised] using ih
    | cons c cs => simp [ih]

/-- What is written after something was: behind a separator every part is raised, and otherwise every part but the one
that goes on. -/
theorem camelFrom_of_ne_nil {out : List Char} (hout : out ≠ []) (cs : List Char) :
    camelFrom out true cs = out ++ (cs.splitOnP isSeparator).flatMap raised ∧
      camelFrom out false cs = out ++ joined (cs.splitOnP isSeparator) := by
  induction cs generalizing out with
  | nil => simp [camelFrom, raised, joined]
  | cons c cs ih =>
    rw [List.splitOnP_cons_eq_if_modifyHead]
    by_cases hc : isSeparator c = true
    · have hraise : (!out.isEmpty) = true := by simpa using hout
      simp [camelFrom, hc, hraise, (ih hout).1, joined, raised]
    · have hgo (more : List Char) := (ih (List.append_ne_nil_of_left_ne_nil hout more)).2
      obtain ⟨part, parts, hparts⟩ := List.exists_cons_of_ne_nil (List.splitOnP_ne_nil isSeparator cs)
      rw [hparts] at hgo ⊢
      simp [camelFrom, hc, hgo, joined, raised]

/-- Until something is written separators do nothing. -/
theorem camelFrom_nil (cs : List Char) : camelFrom [] false cs = joined (segments cs) := by
  induction cs with
  | nil => rfl
  | cons c cs ih =>
    rw [segments, List.splitOnP_cons_eq_if_modifyHead]
    by_cases hc : isSeparator c = true
    · simpa [camelFrom, hc, segments] using ih
    · obtain ⟨part, parts, hparts⟩ := List.exists_cons_of_ne_nil (List.splitOnP_ne_nil isSeparator cs)
      have hgo := (camelFrom_of_ne_nil (List.cons_ne_nil c []) cs).2
      simp [camelFrom, hc, hgo, hparts, joined, flatMap_raised_filter]

/-! ### What is left -/

theorem not_isSeparator_of_mem_camelFrom {out cs : List Char} {raise : Bool} (hout : ∀ d ∈ out, isSeparator d = false) :
    ∀ d ∈ camelFrom out raise cs, isSeparator d = false := by
  fun_induction camelFrom out raise cs with
  | case1 => exact hout
  | case2 out raise c cs hc ih => exact ih hout
  | case3 out c cs hc ih =>
    refine ih (List.forall_mem_append.2 ⟨hout, fun d hd => ?_⟩)
    exact not_isSeparator_of_mem_upperCase (by simpa using hc) hd
  | case4 out raise c cs hc hraise ih =>
    refine ih (List.forall_mem_append.2 ⟨hout, ?_⟩)
    simpa using hc

theorem camelFrom_of_no_separator {out cs : List Char} (h : ∀ c ∈ cs, isSeparator c = false) :
    camelFrom out false cs = out ++ cs := by
  induction cs generalizing out with
  | nil => rw [camelFrom, List.append_nil]
  | cons c cs ih =>
    rw [List.forall_mem_cons] at h
    simp [camelFrom, h.1, ih h.2]

/-- A name in camel case is its first segment followed by the others raised. The upper case of a character has no
separator unless the character is one, so a name in camel case has none, and it is in camel case already. -/
theorem camelCase_segments (name : String) :
    camelCase name = String.ofList (joined (segments name.toList)) ∧
      (∀ c, isSeparator c = false → ∀ d ∈ Text.upperCase c, isSeparator d = false) ∧
      (∀ c ∈ (camelCase name).toList, isSeparator c = false) ∧ camelCase (camelCase name) = camelCase name := by
  have hleft : ∀ c ∈ (camelCase name).toList, isSeparator c = false := by
    rw [camelCase, String.toList_ofList]
    exact not_isSeparator_of_mem_camelFrom (List.forall_mem_nil _)
  refine ⟨by rw [camelCase, camelFrom_nil], fun c hc d hd => not_isSeparator_of_mem_upperCase hc hd, hleft, ?_⟩
  rw [camelCase.eq_def (camelCase name), camelFrom_of_no_separator hleft, List.nil_append, String.ofList_toList]

example : camelCase "--aria-_described-by-" = "ariaDescribedBy" := by rfl

end PropertyName

end DataBinding
