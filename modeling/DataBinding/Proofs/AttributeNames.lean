import Mathlib.Data.List.Count
import Mathlib.Data.List.TakeDrop
import Mathlib.Data.List.TakeWhile
import DataBinding.Attribute

/-!
# Names of attributes

A name goes through three checks: without its blank ends it must have some text and no blank, then the pattern of a
target, a point and a command is tried on it, and where that fails it must not have a point. Together they are one
grammar (`Attribute.IsName`), and what they give is the only way to divide the name (`Attribute.split?_eq_some_iff`).
The pattern is described apart from the function that tries it (`Attribute.Matches`), and no other function does what
the description says (`Attribute.isMatcher_iff`). On a text without blanks the pattern asks for a single point with text
on both sides (`Attribute.matches_iff`), so a name that it leaves over has no point, or it is refused.
-/

namespace DataBinding

namespace Text

/-- The core of a text: only blanks stand before and after it, and it neither begins nor ends with one. -/
structure IsCore (cs core : List Char) : Prop where
  ends : ∃ before after, cs = before ++ core ++ after ∧ (∀ c ∈ before, isBlank c = true) ∧
    ∀ c ∈ after, isBlank c = true
  first : ∀ c ∈ core.head?, isBlank c = false
  last : ∀ c ∈ core.getLast?, isBlank c = false

theorem isBlank_of_mem_head?_dropWhile (cs : List Char) : ∀ c ∈ (cs.dropWhile isBlank).head?, isBlank c = false := by
  intro c hc
  have hhead := List.head?_dropWhile_not isBlank cs
  rw [Option.mem_def.1 hc] at hhead
  simpa using hhead

theorem isCore_trimBlanks (cs : List Char) : IsCore cs (trimBlanks cs) := by
  obtain ⟨kept, hkept⟩ : ∃ kept, cs.dropWhile isBlank = kept := ⟨_, rfl⟩
  have hcut : (kept.reverse.dropWhile isBlank).reverse = trimBlanks cs := by rw [trimBlanks, hkept]
  have hback : trimBlanks cs ++ (kept.reverse.takeWhile isBlank).reverse = kept := calc
    _ = (kept.reverse.takeWhile isBlank ++ kept.reverse.dropWhile isBlank).reverse := by
      rw [List.reverse_append, hcut]
    _ = kept := by rw [List.takeWhile_append_dropWhile, List.reverse_reverse]
  constructor
  case ends =>
    refine ⟨cs.takeWhile isBlank, (kept.reverse.takeWhile isBlank).reverse, ?_, ?_, ?_⟩
    · rw [List.append_assoc, hback, ← hkept, List.takeWhile_append_dropWhile]
    · exact fun c hc => List.mem_takeWhile_imp hc
    · exact fun c hc => List.mem_takeWhile_imp (List.mem_reverse.1 hc)
  case first =>
    intro c hc
    refine isBlank_of_mem_head?_dropWhile cs c ?_
    rw [hkept, ← hback, List.head?_append, Option.mem_def.1 hc]
    rfl
  case last =>
    intro c hc
    rw [← hcut, List.getLast?_reverse] at hc
    exact isBlank_of_mem_head?_dropWhile _ c hc

end Text

namespace Attribute

/-! ### The pattern -/

/-- A part of a text that the pattern matches. -/
structure IsPart (part : List Char) : Prop where
  nonempty : part ≠ []
  plain : ∀ c ∈ part, c ≠ '.' ∧ Text.isBlank c = false

/-- What the pattern says of a text: it is a target, a point and a command. -/
structure Matches (cs target command : List Char) : Prop where
  parts : IsPart target ∧ IsPart command
  joined : target ++ '.' :: command = cs

/-- A function that tries the pattern: what it captures matches, and it captures something whenever there is a match. -/
structure IsMatcher (m : List Char → Option (List Char × List Char)) : Prop where
  sound {cs target command : List Char} : m cs = some (target, command) → Matches cs target command
  complete {cs target command : List Char} : Matches cs target command → (m cs).isSome

theorem isPlain_iff {c : Char} : isPlain c = true ↔ c ≠ '.' ∧ Text.isBlank c = false := by
  simp [isPlain]

/-- The point is in neither part, so the target is the longest run of characters that may stand in one. -/
theorem Matches.span_eq {cs target command : List Char} (h : Matches cs target command) :
    cs.span isPlain = (target, '.' :: command) := by
  have htarget : ∀ c ∈ target, isPlain c = true := fun c hc => isPlain_iff.2 (h.parts.1.plain c hc)
  have hpoint : ¬isPlain '.' = true := by decide
  rw [← h.joined, List.span_eq_takeWhile_dropWhile, List.takeWhile_append_of_pos htarget,
    List.dropWhile_append_of_pos htarget, List.takeWhile_cons_of_neg hpoint, List.dropWhile_cons_of_neg hpoint,
    List.append_nil]

theorem Matches.mem_point {cs target command : List Char} (h : Matches cs target command) : '.' ∈ cs := by
  rw [← h.joined]
  exact List.mem_append_right _ List.mem_cons_self

theorem captures?_eq_some_iff {cs target command : List Char} :
    captures? cs = some (target, command) ↔ Matches cs target command := by
  constructor
  · intro h
    unfold captures? at h
    split at h
    case h_1 taken rest hspan =>
      rw [List.span_eq_takeWhile_dropWhile, Prod.mk.injEq] at hspan
      obtain ⟨rfl, hrest⟩ := hspan
      split at h
      case isTrue => cases h
      case isFalse hgood =>
        cases h
        simp only [Bool.or_eq_true, not_or, List.isEmpty_iff, Bool.not_eq_true', Bool.not_eq_false,
          List.all_eq_true] at hgood
        obtain ⟨⟨htarget, hcommand⟩, hplain⟩ := hgood
        refine ⟨⟨⟨htarget, fun c hc => ?_⟩, ⟨hcommand, fun c hc => ?_⟩⟩, ?_⟩
        · exact isPlain_iff.1 (List.mem_takeWhile_imp hc)
        · exact isPlain_iff.1 (hplain c hc)
        · rw [← hrest, List.takeWhile_append_dropWhile]
    case h_2 => cases h
  · intro h
    have hcommand : ∀ c ∈ command, isPlain c = true := fun c hc => isPlain_iff.2 (h.parts.2.plain c hc)
    rw [captures?, h.span_eq]
    simp [h.parts.1.nonempty, h.parts.2.nonempty, List.all_eq_true.2 hcommand]

theorem captures?_eq_none {cs : List Char} (h : '.' ∉ cs) : captures? cs = none := by
  cases hc : captures? cs with
  | none => rfl
  | some p => exact absurd (captures?_eq_some_iff.1 hc).mem_point h

/-- The description of the pattern leaves nothing open. -/
theorem isMatcher_iff (m : List Char → Option (List Char × List Char)) : IsMatcher m ↔ m = captures? := by
  constructor
  · intro h
    funext cs
    cases hm : m cs with
    | some p => exact (captures?_eq_some_iff.2 (h.sound hm)).symm
    | none =>
      cases hc : captures? cs with
      | none => rfl
      | some p =>
        have hsome := h.complete (captures?_eq_some_iff.1 hc)
        rw [hm] at hsome
        cases hsome
  · rintro rfl
    refine ⟨captures?_eq_some_iff.1, fun h => ?_⟩
    rw [captures?_eq_some_iff.2 h]
    rfl

/-! ### The grammar -/

/-- The ways to divide a name into a target and a command: without a point it is a target alone, and a single point
with text on both sides stands between the two. -/
inductive Divides (name : List Char) : List Char → Option (List Char) → Prop
  | alone (hpoint : '.' ∉ name) : Divides name name none
  | point {target command : List Char} (hpoint : name.count '.' = 1) (htarget : target ≠ []) (hcommand : command ≠ [])
    (hjoined : target ++ '.' :: command = name) : Divides name target (some command)

/-- The names of attributes. -/
structure IsName (name : List Char) : Prop where
  nonempty : name ≠ []
  unblank : ∀ c ∈ name, Text.isBlank c = false
  divides : ∃ target command, Divides name target command

/-- Without blanks the pattern asks for a single point with text on both sides. -/
theorem matches_iff {name target command : List Char} (hname : ∀ c ∈ name, Text.isBlank c = false) :
    Matches name target command ↔ Divides name target (some command) := by
  have hcount : (target ++ '.' :: command).count '.' = target.count '.' + (command.count '.' + 1) := by
    rw [List.count_append, List.count_cons_self]
  constructor
  · rintro ⟨⟨htarget, hcommand⟩, rfl⟩
    have hleft : target.count '.' = 0 := List.count_eq_zero.2 fun h => (htarget.plain _ h).1 rfl
    have hright : command.count '.' = 0 := List.count_eq_zero.2 fun h => (hcommand.plain _ h).1 rfl
    exact .point (by omega) htarget.nonempty hcommand.nonempty rfl
  · intro h
    cases h with
    | point hpoint htarget hcommand hjoined =>
      subst hjoined
      have hleft : '.' ∉ target := List.count_eq_zero.1 (by omega)
      have hright : '.' ∉ command := List.count_eq_zero.1 (by omega)
      refine ⟨⟨⟨htarget, fun c hc => ⟨?_, hname c ?_⟩⟩, ⟨hcommand, fun c hc => ⟨?_, hname c ?_⟩⟩⟩, rfl⟩
      · exact ne_of_mem_of_not_mem hc hleft
      · exact List.mem_append_left _ hc
      · exact ne_of_mem_of_not_mem hc hright
      · exact List.mem_append_right _ (List.mem_cons_of_mem _ hc)

/-- The first check. -/
theorem passes_iff {name : List Char} : (name.isEmpty || name.any Text.isBlank) = false ↔
    name ≠ [] ∧ ∀ c ∈ name, Text.isBlank c = false := by
  simp

/-- The other two checks give what divides a name that passes the first one. -/
theorem split?_of_passes {name target : List Char} {command : Option (List Char)}
    (h : (name.isEmpty || name.any Text.isBlank) = false) :
    split? name = some (target, command) ↔ Divides name target command := by
  have hname := (passes_iff.1 h).2
  rw [split?, if_neg (by simp [h])]
  cases command with
  | some command =>
    rw [← matches_iff hname, ← captures?_eq_some_iff]
    cases captures? name with
    | some p => simp [Prod.ext_iff]
    | none => by_cases hpoint : '.' ∈ name <;> simp [hpoint]
  | none =>
    constructor
    · intro hsplit
      cases hc : captures? name with
      | some p => simp [hc] at hsplit
      | none =>
        by_cases hpoint : '.' ∈ name
        · simp [hc, hpoint] at hsplit
        · obtain rfl : name = target := by simpa [hc, hpoint] using hsplit
          exact .alone hpoint
    · rintro ⟨hpoint⟩
      simp [captures?_eq_none hpoint, hpoint]

theorem split?_eq_some_iff {name target : List Char} {command : Option (List Char)} :
    split? name = some (target, command) ↔ IsName name ∧ Divides name target command := by
  cases h : name.isEmpty || name.any Text.isBlank with
  | false =>
    obtain ⟨hempty, hname⟩ := passes_iff.1 h
    rw [split?_of_passes h]
    exact ⟨fun hdivides => ⟨⟨hempty, hname, _, _, hdivides⟩, hdivides⟩, And.right⟩
  | true =>
    have hnot : ¬IsName name := fun hname => by simp [passes_iff.2 ⟨hname.nonempty, hname.unblank⟩] at h
    simp [split?, h, hnot]

/-! ### Parsing -/

/-- What a name is parsed to: the name and the value as they are given, and what divides the core of the name. -/
theorem parse_eq_ok_iff {rawName rawValue : String} {a : Attribute} :
    parse rawName rawValue = .ok a ↔ IsName (Text.trimBlanks rawName.toList) ∧ a.rawName = rawName ∧
      a.rawValue = rawValue ∧
      Divides (Text.trimBlanks rawName.toList) a.target.toList (a.command.map String.toList) := by
  generalize hcore : Text.trimBlanks rawName.toList = name
  rw [parse, hcore]
  constructor
  · intro h
    split at h
    case h_1 => cases h
    case h_2 target command hs =>
      cases h
      obtain ⟨hname, hdivides⟩ := split?_eq_some_iff.1 hs
      refine ⟨hname, rfl, rfl, ?_⟩
      simpa [Function.comp_def] using hdivides
  · rintro ⟨hname, rfl, rfl, hdivides⟩
    rw [split?_eq_some_iff.2 ⟨hname, hdivides⟩]
    simp [Function.comp_def]

theorem parse_eq_error {rawName rawValue : String} (h : ¬IsName (Text.trimBlanks rawName.toList)) :
    parse rawName rawValue = .error (.invalidAttribute rawName) := by
  cases hs : split? (Text.trimBlanks rawName.toList) with
  | none => rw [parse, hs]
  | some p => exact absurd (split?_eq_some_iff.1 hs).1 h

theorem exists_parse_eq_ok {rawName : String} (rawValue : String) (h : IsName (Text.trimBlanks rawName.toList)) :
    ∃ a, parse rawName rawValue = .ok a := by
  obtain ⟨target, command, hdivides⟩ := h.divides
  refine ⟨⟨rawName, rawValue, String.ofList target, command.map String.ofList⟩, ?_⟩
  exact parse_eq_ok_iff.2 ⟨h, rfl, rfl, by simpa [Function.comp_def] using hdivides⟩

/-- Names are parsed by exactly their grammar. What is parsed is the core of the name as it is given. It is accepted if
it is a name, which has no blank and either no point or a single one with text on both sides; then the target and the
command are what divides it. Everything else is refused with the name as it is given. Nothing of that depends on how
the pattern is tried. -/
theorem parse_grammar (rawName rawValue : String) :
    let name := Text.trimBlanks rawName.toList
    Text.IsCore rawName.toList name ∧ (∀ m, IsMatcher m ↔ m = captures?) ∧
      ((∃ a, parse rawName rawValue = .ok a) ↔ IsName name) ∧
      (∀ a, parse rawName rawValue = .ok a ↔ IsName name ∧ a.rawName = rawName ∧ a.rawValue = rawValue ∧
        Divides name a.target.toList (a.command.map String.toList)) ∧
      (parse rawName rawValue = .error (.invalidAttribute rawName) ↔ ¬IsName name) := by
  intro name
  refine ⟨Text.isCore_trimBlanks _, isMatcher_iff, ⟨?_, exists_parse_eq_ok rawValue⟩, fun _ => parse_eq_ok_iff,
    ⟨?_, parse_eq_error⟩⟩
  · rintro ⟨a, ha⟩
    exact (parse_eq_ok_iff.1 ha).1
  · intro herror hname
    obtain ⟨a, ha⟩ := exists_parse_eq_ok rawValue hname
    rw [ha] at herror
    cases herror

example : parse " value.subscribe\n" "user$" =
    .ok ⟨" value.subscribe\n", "user$", "value", some "subscribe"⟩ := by rfl

end Attribute

end DataBinding
