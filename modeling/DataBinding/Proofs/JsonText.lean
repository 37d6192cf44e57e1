import Mathlib.Data.List.TakeWhile
import DataBinding.Json.Printer
import DataBinding.Json.Reader

/-!
# Reading back what was written

The text of a JSON value is cut into the tokens of the value, whether it was written over several lines
(`reads_prettyChars`) or without blanks (`reads_compactChars`): blanks between tokens are passed over, a string gives
back its characters whichever way they are escaped, and a number is ended by whatever follows it. The tokens of a value
are put together to the value again, whatever is open around it, as long as no more than `maxDepth` containers stand
inside one another (`Reading.run_tokens`). A number may be read as another one: then the text is read as the value with
these other numbers (`parse?_pretty_mapNumbers`, `parse?_compress_mapNumbers`). Integers of 64 bits read back
(`readsBack_int`).
-/

namespace DataBinding

/-! ### Digits -/

namespace Numeral

theorem isDigit_of_mem_toDigits {n : Nat} {c : Char} (h : c ∈ Nat.toDigits 10 n) : isDigit c = true :=
  Nat.isDigit_of_mem_toDigits (by decide) (by decide) h

theorem value_toDigits (n : Nat) : value (Nat.toDigits 10 n) = n := by
  have hfold : value (Nat.toDigits 10 n) = Nat.ofDigitChars 10 (Nat.toDigits 10 n) 0 := Nat.ofDigitChars_eq_foldl.symm
  rw [hfold]
  exact Nat.ofDigitChars_toDigits (by decide) (by decide)

/-- The first digit of a number is zero for zero alone. -/
theorem head?_toDigits_ne_zero {n : Nat} (hn : 0 < n) : (Nat.toDigits 10 n).head? ≠ some '0' := by
  induction n using Nat.strongRecOn with
  | ind n ih =>
    rw [Nat.toDigits_eq_if (by decide)]
    by_cases hlt : n < 10
    · rw [if_pos hlt, List.head?_cons]
      intro h
      have hzero : n.digitChar = '0' := Option.some.inj h
      have hdigit : ∀ m < 10, 0 < m → m.digitChar ≠ '0' := by decide
      exact hdigit n hlt hn hzero
    · rw [if_neg hlt]
      have hrest := ih (n / 10) (by omega) (by omega)
      have hne : Nat.toDigits 10 (n / 10) ≠ [] := Nat.toDigits_ne_nil
      cases hds : Nat.toDigits 10 (n / 10) with
      | nil => exact absurd hds hne
      | cons d ds =>
        rw [hds] at hrest
        simpa using hrest

end Numeral

namespace Json

open Scan

/-! ### Numbers -/

/-- The characters of the number `n` belong together, and they spell `m`. -/
structure Number.ReadsAs (n m : Number) : Prop where
  nonempty : n.chars ≠ []
  numeral {c : Char} : c ∈ n.chars → isNumeral c = true
  spelled : Number.ofChars? n.chars = some m

abbrev Number.ReadsBack (n : Number) : Prop := n.ReadsAs n

theorem Spelling.wholeOK_toDigits (n : Nat) : Spelling.wholeOK (Nat.toDigits 10 n) = true := by
  by_cases hn : n = 0
  · subst hn
    rfl
  · have hhead := Numeral.head?_toDigits_ne_zero (Nat.pos_of_ne_zero hn)
    have hne : Nat.toDigits 10 n ≠ [] := Nat.toDigits_ne_nil
    generalize Nat.toDigits 10 n = ds at hhead hne
    unfold wholeOK
    split
    · rfl
    · simp at hhead
    · simpa using hne

/-- Digits alone, with a sign or without one, are a spelling. -/
theorem Spelling.ofChars?_toDigits (n : Nat) :
    Spelling.ofChars? (Nat.toDigits 10 n) = some ⟨false, Nat.toDigits 10 n, none, none⟩ ∧
      Spelling.ofChars? ('-' :: Nat.toDigits 10 n) = some ⟨true, Nat.toDigits 10 n, none, none⟩ := by
  have hdigits : ∀ c ∈ Nat.toDigits 10 n, Numeral.isDigit c = true := fun c => Numeral.isDigit_of_mem_toDigits
  have htake : (Nat.toDigits 10 n).takeWhile Numeral.isDigit = Nat.toDigits 10 n :=
    List.takeWhile_eq_self_iff.2 hdigits
  have hdrop : (Nat.toDigits 10 n).dropWhile Numeral.isDigit = [] := List.dropWhile_eq_nil_iff.2 hdigits
  have hwhole := Spelling.wholeOK_toDigits n
  constructor
  · have hsign : ∀ r, Nat.toDigits 10 n ≠ '-' :: r := by
      intro r hr
      have hminus := hdigits '-' (by simp [hr])
      simp [Numeral.isDigit] at hminus
    unfold ofChars?
    split
    next negative body hbody =>
      split at hbody
      next r hr => exact absurd hr (hsign r)
      next r hr =>
        obtain ⟨rfl, rfl⟩ := Prod.mk.inj hbody
        simp [htake, hdrop, hwhole, exponentOf?]
  · simp [ofChars?, htake, hdrop, hwhole, exponentOf?]

theorem Spelling.number?_digits {ds : List Char} {n : Int} (hvalue : (Numeral.value ds : Int) = n)
    (hhi : n < UInt64.size) : Spelling.number? ⟨false, ds, none, none⟩ = some (.int n) := by
  simp only [number?, hvalue, hhi, Option.isNone_none, Bool.and_self, decide_true, if_true, Bool.false_eq_true,
    if_false]

theorem Spelling.number?_negative {ds : List Char} {n : Int} (hvalue : (Numeral.value ds : Int) = -n)
    (hlo : Int64.minValue.toInt ≤ n) (hneg : n < 0) :
    Spelling.number? ⟨true, ds, none, none⟩ = some (.int n) := by
  simp only [number?, hvalue, hlo, hneg, Option.isNone_none, Bool.and_self, decide_true, if_true, Int.neg_neg]

/-- An integer of 64 bits, signed or not, reads back. -/
theorem readsBack_int {n : Int} (hlo : Int64.minValue.toInt ≤ n) (hhi : n < UInt64.size) :
    (Number.int n).ReadsBack := by
  have hnumeral : ∀ m, ∀ c ∈ Nat.toDigits 10 m, isNumeral c = true := by
    intro m c hc
    simp [isNumeral, Numeral.isDigit_of_mem_toDigits hc]
  by_cases hn : 0 ≤ n
  · have hchars : (Number.int n).chars = Nat.toDigits 10 n.toNat := by
      simp only [Number.chars, Int.toString_eq_repr, Int.repr_eq_if, if_pos hn, Nat.toList_repr]
    refine ⟨?_, ?_, ?_⟩
    · rw [hchars]
      exact Nat.toDigits_ne_nil
    · rw [hchars]
      exact fun {c} hc => hnumeral _ c hc
    · have hvalue : (Numeral.value (Nat.toDigits 10 n.toNat) : Int) = n := by
        rw [Numeral.value_toDigits]
        exact Int.toNat_of_nonneg hn
      rw [hchars, Number.ofChars?, (Spelling.ofChars?_toDigits _).1, Option.bind_some]
      exact Spelling.number?_digits hvalue hhi
  · have hchars : (Number.int n).chars = '-' :: Nat.toDigits 10 (-n).toNat := by
      simp only [Number.chars, Int.toString_eq_repr, Int.repr_eq_if, if_neg hn, String.toList_append,
        Nat.toList_repr]
      rfl
    refine ⟨?_, ?_, ?_⟩
    · rw [hchars]
      exact List.cons_ne_nil _ _
    · rw [hchars]
      intro c hc
      rcases List.mem_cons.1 hc with rfl | hc
      · rfl
      · exact hnumeral _ c hc
    · have hneg : n < 0 := Int.not_le.1 hn
      have hpos : 0 ≤ -n := Int.neg_nonneg_of_nonpos (Int.le_of_lt hneg)
      have hvalue : (Numeral.value (Nat.toDigits 10 (-n).toNat) : Int) = -n := by
        rw [Numeral.value_toDigits]
        exact Int.toNat_of_nonneg hpos
      rw [hchars, Number.ofChars?, (Spelling.ofChars?_toDigits _).2, Option.bind_some]
      exact Spelling.number?_negative hvalue hlo hneg

/-! ### Tokens of a value -/

mutual

/-- The tokens that spell the value. -/
def tokens : Json → List Token
  | .null => [.null]
  | .bool b => [.bool b]
  | .number n => [.number n]
  | .string s => [.string s]
  | .array items => .openArray :: (itemTokens items ++ [.closeArray])
  | .object members => .openObject :: (memberTokens members ++ [.closeObject])

def itemTokens : List Json → List Token
  | [] => []
  | [j] => tokens j
  | j :: js => tokens j ++ .comma :: itemTokens js

def memberTokens : List (String × Json) → List Token
  | [] => []
  | [(k, j)] => .string k :: .colon :: tokens j
  | (k, j) :: ms => .string k :: .colon :: tokens j ++ .comma :: memberTokens ms

end

mutual

/-- The numbers in the value. -/
def numbers : Json → List Number
  | .number n => [n]
  | .array items => itemNumbers items
  | .object members => memberNumbers members
  | .null | .bool _ | .string _ => []

def itemNumbers : List Json → List Number
  | [] => []
  | j :: js => numbers j ++ itemNumbers js

def memberNumbers : List (String × Json) → List Number
  | [] => []
  | (_, j) :: ms => numbers j ++ memberNumbers ms

end

mutual

/-- The value with other numbers. -/
def mapNumbers (f : Number → Number) : Json → Json
  | .number n => .number (f n)
  | .array items => .array (mapItems f items)
  | .object members => .object (mapMembers f members)
  | .null => .null
  | .bool b => .bool b
  | .string s => .string s

def mapItems (f : Number → Number) : List Json → List Json
  | [] => []
  | j :: js => mapNumbers f j :: mapItems f js

def mapMembers (f : Number → Number) : List (String × Json) → List (String × Json)
  | [] => []
  | (k, j) :: ms => (k, mapNumbers f j) :: mapMembers f ms

end

mutual

/-- How many arrays and objects stand inside one another. -/
def depth : Json → Nat
  | .array items => itemsDepth items + 1
  | .object members => membersDepth members + 1
  | .null | .bool _ | .number _ | .string _ => 0

def itemsDepth : List Json → Nat
  | [] => 0
  | j :: js => max (depth j) (itemsDepth js)

def membersDepth : List (String × Json) → Nat
  | [] => 0
  | (_, j) :: ms => max (depth j) (membersDepth ms)

end

theorem mem_itemNumbers {n : Number} {js : List Json} : n ∈ itemNumbers js ↔ ∃ j ∈ js, n ∈ j.numbers := by
  induction js with
  | nil => simp [itemNumbers]
  | cons j js ih => simp [itemNumbers, ih]

theorem mem_memberNumbers {n : Number} {ms : List (String × Json)} :
    n ∈ memberNumbers ms ↔ ∃ m ∈ ms, n ∈ m.2.numbers := by
  induction ms with
  | nil => simp [memberNumbers]
  | cons m ms ih => simp [memberNumbers, ih]

theorem mapItems_eq (f : Number → Number) (js : List Json) : mapItems f js = js.map (mapNumbers f) := by
  induction js with
  | nil => rfl
  | cons j js ih => rw [mapItems, ih, List.map_cons]

theorem mapMembers_eq (f : Number → Number) (ms : List (String × Json)) :
    mapMembers f ms = ms.map fun m => (m.1, m.2.mapNumbers f) := by
  induction ms with
  | nil => rfl
  | cons m ms ih => rw [mapMembers, ih, List.map_cons]

mutual

theorem mapNumbers_of_same {f : Number → Number} : ∀ {j : Json}, (∀ n ∈ j.numbers, f n = n) → j.mapNumbers f = j
  | .number n, h => congrArg Json.number (h n List.mem_cons_self)
  | .array _, h => congrArg Json.array (mapItems_of_same h)
  | .object _, h => congrArg Json.object (mapMembers_of_same h)
  | .null, _ | .bool _, _ | .string _, _ => rfl

theorem mapItems_of_same {f : Number → Number} : ∀ {js : List Json}, (∀ n ∈ itemNumbers js, f n = n) → mapItems f js = js
  | [], _ => rfl
  | j :: js, h => by
    rw [mapItems, mapNumbers_of_same fun n hn => h n (List.mem_append_left _ hn),
      mapItems_of_same fun n hn => h n (List.mem_append_right _ hn)]

theorem mapMembers_of_same {f : Number → Number} :
    ∀ {ms : List (String × Json)}, (∀ n ∈ memberNumbers ms, f n = n) → mapMembers f ms = ms
  | [], _ => rfl
  | (k, j) :: ms, h => by
    rw [mapMembers, mapNumbers_of_same fun n hn => h n (List.mem_append_left _ hn),
      mapMembers_of_same fun n hn => h n (List.mem_append_right _ hn)]

end

mutual

theorem depth_mapNumbers (f : Number → Number) : ∀ j : Json, (j.mapNumbers f).depth = j.depth
  | .array items => congrArg (· + 1) (itemsDepth_mapItems f items)
  | .object members => congrArg (· + 1) (membersDepth_mapMembers f members)
  | .number _ | .null | .bool _ | .string _ => rfl

theorem itemsDepth_mapItems (f : Number → Number) : ∀ js : List Json, itemsDepth (mapItems f js) = itemsDepth js
  | [] => rfl
  | j :: js => by rw [mapItems, itemsDepth, depth_mapNumbers f j, itemsDepth_mapItems f js, itemsDepth]

theorem membersDepth_mapMembers (f : Number → Number) :
    ∀ ms : List (String × Json), membersDepth (mapMembers f ms) = membersDepth ms
  | [] => rfl
  | (k, j) :: ms => by rw [mapMembers, membersDepth, depth_mapNumbers f j, membersDepth_mapMembers f ms, membersDepth]

end

theorem itemsDepth_le_iff {n : Nat} {js : List Json} : itemsDepth js ≤ n ↔ ∀ j ∈ js, j.depth ≤ n := by
  induction js with
  | nil => simp [itemsDepth]
  | cons j js ih =>
    rw [itemsDepth, Nat.max_le, ih]
    simp

theorem membersDepth_le_iff {n : Nat} {ms : List (String × Json)} :
    membersDepth ms ≤ n ↔ ∀ m ∈ ms, m.2.depth ≤ n := by
  induction ms with
  | nil => simp [membersDepth]
  | cons m ms ih =>
    rw [membersDepth, Nat.max_le, ih]
    simp

/-! ### Cutting the text into tokens -/

namespace Scan

variable {found ts ts' : List Token} {t : Token} {c : Char} {cs read rest text text' : List Char}

theorem run_space (hc : isSpace c = true) : run found .between (c :: cs) = run found .between cs := by
  simp [run, step, start, hc]

theorem run_newLine (depth : Nat) : run found .between (newLine depth ++ rest) = run found .between rest := by
  have hblanks : ∀ n, run found .between (List.replicate n ' ' ++ rest) = run found .between rest := by
    intro n
    induction n with
    | zero => rfl
    | succ n ih => rw [List.replicate_succ, List.cons_append, run_space (by decide), ih]
  rw [newLine, List.cons_append, run_space (by decide), hblanks]

/-- What comes next ends a keyword and a number. -/
def Ends (rest : List Char) : Prop := ∀ c, rest.head? = some c → isLetter c = false ∧ isNumeral c = false

theorem ends_cons (hletter : isLetter c = false) (hnumeral : isNumeral c = false) : Ends (c :: cs) := by
  intro d hd
  obtain rfl : c = d := Option.some.inj hd
  exact ⟨hletter, hnumeral⟩

/-- The text gives these tokens, whatever was found before it, if what follows it ends numbers and keywords. -/
def Reads (text : List Char) (ts : List Token) : Prop :=
  ∀ found rest, Ends rest → run found .between (text ++ rest) = run (ts.reverse ++ found) .between rest

/-! #### Keywords and numbers -/

theorem run_gathering {gather : List Char → Scan}
    (hgather : ∀ d ∈ cs, ∀ read, (gather read).step d = some ([], gather (d :: read))) :
    run found (gather read) (cs ++ rest) = run found (gather (cs.reverse ++ read)) rest := by
  induction cs generalizing read with
  | nil => rfl
  | cons d ds ih =>
    have hd := hgather d List.mem_cons_self read
    have htail : run found (gather (d :: read)) (ds ++ rest) = run found (gather (ds.reverse ++ d :: read)) rest :=
      ih fun e he => hgather e (List.mem_cons_of_mem _ he)
    simp [run, hd, htail]

/-- A token that has no end of its own is ended by whatever cannot be part of it. -/
theorem run_endWith {s : Scan} (hfinish : s.finish = some [t])
    (hstep : ∀ d, isLetter d = false → isNumeral d = false → s.step d = endWith (some t) d) (hrest : Ends rest) :
    run found s rest = run (t :: found) .between rest := by
  cases rest with
  | nil =>
    simp only [run]
    rw [hfinish]
    simp [finish]
  | cons d ds =>
    obtain ⟨hletter, hnumeral⟩ := hrest d rfl
    have hbetween : Scan.between.step d = start d := rfl
    simp only [run]
    rw [hstep d hletter hnumeral, hbetween]
    unfold endWith
    cases start d with
    | none => rfl
    | some next => simp

theorem reads_keyword (hstart : start c = some ([], .word [c])) (hletters : cs.all isLetter = true)
    (hread : keyword? (cs.reverse ++ [c]) = some t) : Reads (c :: cs) [t] := by
  intro found rest hrest
  have hgather : ∀ d ∈ cs, ∀ read, (word read).step d = some ([], word (d :: read)) := by
    intro d hd read
    simp [step, List.all_eq_true.1 hletters d hd]
  calc run found .between (c :: cs ++ rest)
      = run found (.word [c]) (cs ++ rest) := by simp [run, step, hstart]
    _ = run found (.word (cs.reverse ++ [c])) rest := run_gathering hgather
    _ = run (t :: found) .between rest :=
      run_endWith (by simp [finish, hread]) (fun d hletter _ => by simp [step, hletter, hread]) hrest

/-- A character of a number starts nothing else. -/
theorem start_of_isNumeral (hc : isNumeral c = true) : start c = some ([], .numeral [c]) := by
  have hne : ∀ d, isNumeral d = false → c ≠ d := by
    rintro d hd rfl
    simp [hd] at hc
  have hspace : isSpace c = false := by
    simp [isSpace, hne ' ' (by decide), hne '\n' (by decide), hne '\t' (by decide), hne '\r' (by decide)]
  simp [start, hspace, hc, hne '[' (by decide), hne ']' (by decide), hne '\x7b' (by decide), hne '\x7d' (by decide),
    hne ',' (by decide), hne ':' (by decide), hne '"' (by decide)]

theorem reads_number {n m : Number} (hn : n.ReadsAs m) : Reads n.chars [.number m] := by
  intro found rest hrest
  have hnumeral := @hn.numeral
  have hspelled := hn.spelled
  cases hchars : n.chars with
  | nil => exact absurd hchars hn.nonempty
  | cons c cs =>
    rw [hchars] at hnumeral hspelled
    have hstart := start_of_isNumeral (hnumeral List.mem_cons_self)
    have hgather : ∀ d ∈ cs, ∀ read, (numeral read).step d = some ([], numeral (d :: read)) := by
      intro d hd read
      simp [step, hnumeral (List.mem_cons_of_mem _ hd)]
    have hread : number? (cs.reverse ++ [c]) = some (.number m) := by simp [number?, hspelled]
    calc run found .between (c :: cs ++ rest)
        = run found (.numeral [c]) (cs ++ rest) := by simp [run, step, hstart]
      _ = run found (.numeral (cs.reverse ++ [c])) rest := run_gathering hgather
      _ = run (.number m :: found) .between rest :=
        run_endWith (by simp [finish, hread]) (fun d _ hd => by simp [step, hd, hread]) hrest

/-! #### Strings -/

theorem hexValue?_hexDigit : ∀ n < 16, hexValue? (hexDigit n) = some n := by decide

/-- However a character is escaped, it is read as itself. -/
theorem run_escapeChar : run found (.string read) (escapeChar c ++ rest) = run found (.string (c :: read)) rest := by
  unfold escapeChar
  split
  next hc => subst hc; rfl
  split
  next hc => subst hc; rfl
  split
  next hc => subst hc; rfl
  split
  next hc => subst hc; rfl
  split
  next hc => subst hc; rfl
  split
  next hc => subst hc; rfl
  split
  next hc => subst hc; rfl
  split
  next hctrl =>
    have hhigh := hexValue?_hexDigit (c.toNat / 16) (by omega)
    have hlow := hexValue?_hexDigit (c.toNat % 16) (by omega)
    have hdigits : 16 * (c.toNat / 16) + c.toNat % 16 = c.toNat := Nat.div_add_mod _ _
    have hzero : hexValue? '0' = some 0 := rfl
    have hhalf : isHighHalf c.toNat = false ∧ isLowHalf c.toNat = false := by
      constructor <;> simp [isHighHalf, isLowHalf] <;> omega
    simp [run, step, hhigh, hlow, hzero, hdigits, afterHex, hhalf]
  next hquote hslash _ _ _ _ _ hctrl =>
    simp [run, step, hquote, hslash, hctrl]

theorem run_quote (s : String) : run found .between (quote s ++ rest) = run (.string s :: found) .between rest := by
  have hchars : ∀ (cs read : List Char),
      run found (.string read) (cs.flatMap escapeChar ++ '"' :: rest) =
        run found (.string (cs.reverse ++ read)) ('"' :: rest) := by
    intro cs
    induction cs with
    | nil => intro read; rfl
    | cons c cs ih =>
      intro read
      rw [List.flatMap_cons, List.append_assoc, run_escapeChar, ih, List.reverse_cons, List.append_assoc]
      rfl
  calc run found .between (quote s ++ rest)
      = run found (.string []) (s.toList.flatMap escapeChar ++ '"' :: rest) := by
        simp [quote, run, step, start, isSpace]
    _ = run found (.string s.toList.reverse) ('"' :: rest) := by rw [hchars, List.append_nil]
    _ = run (.string s :: found) .between rest := by simp [run, step]

/-! #### Arrays and objects -/

theorem run_mark (hstart : start c = some ([t], .between)) :
    run found .between (c :: cs) = run (t :: found) .between cs := by
  simp [run, step, hstart]

theorem Reads.line (h : Reads text ts) (depth : Nat) : Reads (newLine depth ++ text) ts := by
  intro found rest hrest
  rw [List.append_assoc, run_newLine, h found rest hrest]

theorem Reads.lineAfter (h : Reads text ts) (depth : Nat) : Reads (text ++ newLine depth) ts := by
  intro found rest _
  have hline : Ends (newLine depth ++ rest) := ends_cons rfl rfl
  rw [List.append_assoc, h found _ hline, run_newLine]

theorem Reads.space (h : Reads text ts) : Reads (' ' :: text) ts := by
  intro found rest hrest
  rw [List.cons_append, run_space rfl, h found rest hrest]

theorem Reads.member (h : Reads text ts) (k : String) :
    Reads (quote k ++ ':' :: text) (.string k :: .colon :: ts) := by
  intro found rest hrest
  calc run found .between (quote k ++ ':' :: text ++ rest)
      = run (.string k :: found) .between (':' :: (text ++ rest)) := by
        rw [List.append_assoc, run_quote, List.cons_append]
    _ = run (.colon :: .string k :: found) .between (text ++ rest) := by rw [run_mark rfl]
    _ = run ((.string k :: .colon :: ts).reverse ++ found) .between rest := by
        rw [h _ _ hrest]
        simp

theorem Reads.comma (h : Reads text ts) (h' : Reads text' ts') :
    Reads (text ++ ',' :: text') (ts ++ .comma :: ts') := by
  intro found rest hrest
  calc run found .between (text ++ ',' :: text' ++ rest)
      = run (ts.reverse ++ found) .between (',' :: (text' ++ rest)) := by
        rw [List.append_assoc, List.cons_append, h _ _ (ends_cons rfl rfl)]
    _ = run ((ts ++ .comma :: ts').reverse ++ found) .between rest := by
        rw [run_mark rfl, h' _ _ hrest]
        simp

/-- What stands between two brackets. -/
theorem Reads.enclosed (h : Reads text ts) {t' : Token} {c' : Char} (hopen : start c = some ([t], .between))
    (hclose : start c' = some ([t'], .between)) (hends : isLetter c' = false ∧ isNumeral c' = false) :
    Reads (c :: (text ++ [c'])) (t :: (ts ++ [t'])) := by
  intro found rest _
  calc run found .between (c :: (text ++ [c']) ++ rest)
      = run (t :: found) .between (text ++ c' :: rest) := by
        rw [List.cons_append, run_mark hopen]
        simp
    _ = run (ts.reverse ++ t :: found) .between (c' :: rest) := by rw [h _ _ (ends_cons hends.1 hends.2)]
    _ = run ((t :: (ts ++ [t'])).reverse ++ found) .between rest := by
        rw [run_mark hclose]
        simp

end Scan

section Layouts

variable {f : Number → Number}

mutual

/-- The text of a value over several lines gives the tokens of the value that it is read as. -/
theorem reads_prettyChars (d : Nat) :
    ∀ j : Json, (∀ n ∈ j.numbers, n.ReadsAs (f n)) → Scan.Reads (prettyChars d j) (j.mapNumbers f).tokens
  | .null, _ => Scan.reads_keyword rfl rfl rfl
  | .bool true, _ => Scan.reads_keyword rfl rfl rfl
  | .bool false, _ => Scan.reads_keyword rfl rfl rfl
  | .number n, hn => Scan.reads_number (hn n List.mem_cons_self)
  | .string s, _ => fun _ _ _ => Scan.run_quote s
  | .array [], _ => fun _ _ _ => rfl
  | .array (j :: js), hn => ((reads_prettyItems (d + 1) (j :: js) hn).lineAfter d).enclosed rfl rfl ⟨rfl, rfl⟩
  | .object [], _ => fun _ _ _ => rfl
  | .object (m :: ms), hn => ((reads_prettyMembers (d + 1) (m :: ms) hn).lineAfter d).enclosed rfl rfl ⟨rfl, rfl⟩

theorem reads_prettyItems (d : Nat) :
    ∀ js : List Json, (∀ n ∈ itemNumbers js, n.ReadsAs (f n)) →
      Scan.Reads (prettyItems d js) (itemTokens (mapItems f js))
  | [], _ => fun _ _ _ => rfl
  | [j], hn => (reads_prettyChars d j fun n h => hn n (List.mem_append_left _ h)).line d
  | j :: i :: js, hn =>
    ((reads_prettyChars d j fun n h => hn n (List.mem_append_left _ h)).line d).comma
      (reads_prettyItems d (i :: js) fun n h => hn n (List.mem_append_right _ h))

theorem reads_prettyMembers (d : Nat) :
    ∀ ms : List (String × Json), (∀ n ∈ memberNumbers ms, n.ReadsAs (f n)) →
      Scan.Reads (prettyMembers d ms) (memberTokens (mapMembers f ms))
  | [], _ => fun _ _ _ => rfl
  | [(k, j)], hn => by
    have hmember := (reads_prettyChars d j fun n h => hn n (List.mem_append_left _ h)).space.member k
    simpa [prettyMembers, memberTokens, mapMembers] using hmember.line d
  | (k, j) :: m :: ms, hn => by
    have hmember := (reads_prettyChars d j fun n h => hn n (List.mem_append_left _ h)).space.member k
    have hrest := reads_prettyMembers d (m :: ms) fun n h => hn n (List.mem_append_right _ h)
    simpa [prettyMembers, memberTokens, mapMembers] using (hmember.line d).comma hrest

end

mutual

/-- The text of a value without blanks gives the tokens of the value that it is read as. -/
theorem reads_compactChars :
    ∀ j : Json, (∀ n ∈ j.numbers, n.ReadsAs (f n)) → Scan.Reads (compactChars j) (j.mapNumbers f).tokens
  | .null, _ => Scan.reads_keyword rfl rfl rfl
  | .bool true, _ => Scan.reads_keyword rfl rfl rfl
  | .bool false, _ => Scan.reads_keyword rfl rfl rfl
  | .number n, hn => Scan.reads_number (hn n List.mem_cons_self)
  | .string s, _ => fun _ _ _ => Scan.run_quote s
  | .array js, hn => (reads_compactItems js hn).enclosed rfl rfl ⟨rfl, rfl⟩
  | .object ms, hn => (reads_compactMembers ms hn).enclosed rfl rfl ⟨rfl, rfl⟩

theorem reads_compactItems :
    ∀ js : List Json, (∀ n ∈ itemNumbers js, n.ReadsAs (f n)) →
      Scan.Reads (compactItems js) (itemTokens (mapItems f js))
  | [], _ => fun _ _ _ => rfl
  | [j], hn => reads_compactChars j fun n h => hn n (List.mem_append_left _ h)
  | j :: i :: js, hn =>
    (reads_compactChars j fun n h => hn n (List.mem_append_left _ h)).comma
      (reads_compactItems (i :: js) fun n h => hn n (List.mem_append_right _ h))

theorem reads_compactMembers :
    ∀ ms : List (String × Json), (∀ n ∈ memberNumbers ms, n.ReadsAs (f n)) →
      Scan.Reads (compactMembers ms) (memberTokens (mapMembers f ms))
  | [], _ => fun _ _ _ => rfl
  | [(k, j)], hn => (reads_compactChars j fun n h => hn n (List.mem_append_left _ h)).member k
  | (k, j) :: m :: ms, hn => by
    have hmember := (reads_compactChars j fun n h => hn n (List.mem_append_left _ h)).member k
    have hrest := reads_compactMembers (m :: ms) fun n h => hn n (List.mem_append_right _ h)
    simpa [compactMembers, memberTokens, mapMembers] using hmember.comma hrest

end

end Layouts

/-- A text that gives tokens gives no others. -/
theorem tokens?_of_reads {text : List Char} {ts : List Token} (h : Scan.Reads text ts) : tokens? text = some ts := by
  have hnothing : Scan.Ends [] := by
    intro c hc
    simp at hc
  have hrun := h [] [] hnothing
  rw [List.append_nil] at hrun
  simp [tokens?, hrun, Scan.run, Scan.finish]

/-! ### Putting the tokens together -/

namespace Reading

theorem run_cons {r r' : Reading} {t : Token} {ts : List Token} (h : r.step t = some r') :
    run r (t :: ts) = run r' ts := by
  simp [run, h]

theorem step_openArray {outer : List Open} (h : outer.length < maxDepth) :
    (value outer).step .openArray = some (.firstItem outer) := by
  simp [step, begin, h]

theorem step_openObject {outer : List Open} (h : outer.length < maxDepth) :
    (value outer).step .openObject = some (.firstKey outer) := by
  simp [step, begin, h]

/-- The first item of an array is read as a later one is. -/
theorem run_firstItem (outer : List Open) (j : Json) (js : List Json) (ts : List Token) :
    run (.firstItem outer) (itemTokens (j :: js) ++ ts) =
      run (.value (.array [] :: outer)) (itemTokens (j :: js) ++ ts) := by
  cases js <;> cases j <;> rfl

/-- The first member of an object is read as a later one is. -/
theorem run_firstKey (outer : List Open) (m : String × Json) (ms : List (String × Json)) (ts : List Token) :
    run (.firstKey outer) (memberTokens (m :: ms) ++ ts) = run (.key [] outer) (memberTokens (m :: ms) ++ ts) := by
  cases ms <;> rfl

mutual

/-- The tokens of a value complete the value, if there is room for its arrays and objects. -/
theorem run_tokens :
    ∀ (j : Json) (outer : List Open) (ts : List Token), outer.length + j.depth ≤ maxDepth →
      run (.value outer) (j.tokens ++ ts) = run (complete j outer) ts
  | .null, _, _, _ | .bool _, _, _, _ | .number _, _, _, _ | .string _, _, _, _ => rfl
  | .array [], outer, ts, h => by
    simp only [depth, itemsDepth] at h
    exact run_cons (step_openArray (by omega))
  | .array (j :: js), outer, ts, h => by
    simp only [depth] at h
    calc run (.value outer) ((Json.array (j :: js)).tokens ++ ts)
        = run (.firstItem outer) (itemTokens (j :: js) ++ .closeArray :: ts) := by
          rw [tokens, List.cons_append, run_cons (step_openArray (by omega)), List.append_assoc, List.singleton_append]
      _ = run (.afterItem (j :: js).reverse outer) (.closeArray :: ts) := by
          rw [run_firstItem, run_itemTokens (j :: js) [] outer _ (by simp) (by omega), List.append_nil]
      _ = run (complete (.array (j :: js)) outer) ts := by rw [run_cons rfl, List.reverse_reverse]
  | .object [], outer, ts, h => by
    simp only [depth, membersDepth] at h
    exact run_cons (step_openObject (by omega))
  | .object (m :: ms), outer, ts, h => by
    simp only [depth] at h
    calc run (.value outer) ((Json.object (m :: ms)).tokens ++ ts)
        = run (.firstKey outer) (memberTokens (m :: ms) ++ .closeObject :: ts) := by
          rw [tokens, List.cons_append, run_cons (step_openObject (by omega)), List.append_assoc, List.singleton_append]
      _ = run (.afterMember (m :: ms).reverse outer) (.closeObject :: ts) := by
          rw [run_firstKey, run_memberTokens (m :: ms) [] outer _ (by simp) (by omega), List.append_nil]
      _ = run (complete (.object (m :: ms)) outer) ts := by rw [run_cons rfl, List.reverse_reverse]

theorem run_itemTokens :
    ∀ (js read : List Json) (outer : List Open) (ts : List Token), js ≠ [] →
      outer.length + 1 + itemsDepth js ≤ maxDepth →
      run (.value (.array read :: outer)) (itemTokens js ++ ts) = run (.afterItem (js.reverse ++ read) outer) ts
  | [], _, _, _, hne, _ => absurd rfl hne
  | [j], read, outer, ts, _, h => by
    simp only [itemsDepth] at h
    exact run_tokens j (.array read :: outer) ts (by simp only [List.length_cons]; omega)
  | j :: i :: js, read, outer, ts, _, h => by
    rw [itemsDepth] at h
    calc run (.value (.array read :: outer)) (itemTokens (j :: i :: js) ++ ts)
        = run (.value (.array read :: outer)) (j.tokens ++ .comma :: (itemTokens (i :: js) ++ ts)) := by
          simp [itemTokens]
      _ = run (.value (.array (j :: read) :: outer)) (itemTokens (i :: js) ++ ts) := by
          rw [run_tokens j (.array read :: outer) _ (by simp only [List.length_cons]; omega)]
          exact run_cons rfl
      _ = run (.afterItem ((j :: i :: js).reverse ++ read) outer) ts := by
          rw [run_itemTokens (i :: js) (j :: read) outer ts (by simp) (by omega)]
          simp

theorem run_memberTokens :
    ∀ (ms read : List (String × Json)) (outer : List Open) (ts : List Token), ms ≠ [] →
      outer.length + 1 + membersDepth ms ≤ maxDepth →
      run (.key read outer) (memberTokens ms ++ ts) = run (.afterMember (ms.reverse ++ read) outer) ts
  | [], _, _, _, hne, _ => absurd rfl hne
  | [(k, j)], read, outer, ts, _, h => by
    simp only [membersDepth] at h
    exact run_tokens j (.object read k :: outer) ts (by simp only [List.length_cons]; omega)
  | (k, j) :: m :: ms, read, outer, ts, _, h => by
    rw [membersDepth] at h
    calc run (.key read outer) (memberTokens ((k, j) :: m :: ms) ++ ts)
        = run (.value (.object read k :: outer)) (j.tokens ++ .comma :: (memberTokens (m :: ms) ++ ts)) := by
          simp only [memberTokens, List.append_assoc, List.cons_append]
          exact (run_cons rfl).trans (run_cons rfl)
      _ = run (.key ((k, j) :: read) outer) (memberTokens (m :: ms) ++ ts) := by
          rw [run_tokens j (.object read k :: outer) _ (by simp only [List.length_cons]; omega)]
          exact run_cons rfl
      _ = run (.afterMember (((k, j) :: m :: ms).reverse ++ read) outer) ts := by
          rw [run_memberTokens (m :: ms) ((k, j) :: read) outer ts (by simp) (by omega)]
          simp

end

end Reading

theorem ofTokens?_tokens {j : Json} (hd : j.depth ≤ maxDepth) : ofTokens? j.tokens = some j := by
  have hrun := Reading.run_tokens j [] [] (by simpa using hd)
  rw [List.append_nil] at hrun
  simp [ofTokens?, hrun, Reading.complete, Reading.run]

section Layouts

variable {f : Number → Number} {j : Json} (hn : ∀ n ∈ j.numbers, n.ReadsAs (f n)) (hd : j.depth ≤ maxDepth)
include hn hd

/-- The text of a value over several lines is read as the value, with the numbers that its numbers are read as. -/
theorem parse?_pretty_mapNumbers : parse? j.pretty = some (j.mapNumbers f) := by
  rw [← depth_mapNumbers f] at hd
  simp [parse?, pretty, tokens?_of_reads (reads_prettyChars 0 j hn), ofTokens?_tokens hd]

/-- The text of a value without blanks is read as the same. -/
theorem parse?_compress_mapNumbers : parse? j.compress = some (j.mapNumbers f) := by
  rw [← depth_mapNumbers f] at hd
  simp [parse?, compress, tokens?_of_reads (reads_compactChars j hn), ofTokens?_tokens hd]

end Layouts

/-- The text of a value whose numbers read back is read as the value. -/
theorem parse?_pretty {j : Json} (hn : ∀ n ∈ j.numbers, n.ReadsBack) (hd : j.depth ≤ maxDepth) :
    parse? j.pretty = some j := by
  have hsame : j.mapNumbers id = j := mapNumbers_of_same fun _ _ => rfl
  rw [parse?_pretty_mapNumbers (f := id) hn hd, hsame]

end Json

end DataBinding
