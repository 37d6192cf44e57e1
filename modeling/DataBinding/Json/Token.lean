import DataBinding.Json.Numeral

/-!
# JSON tokens

A text is cut into tokens in one pass, one character at a time: `Scan.step` says what a character adds to the token that
is being read, and which tokens it ends.
-/

namespace DataBinding

namespace Json

inductive Token
  | openArray | closeArray | openObject | closeObject | comma | colon
  | null
  | bool (b : Bool)
  | number (n : Number)
  | string (s : String)

/-- What is being read. Characters already read are kept in reverse. -/
inductive Scan
  /-- Between tokens. -/
  | between
  /-- In a keyword. -/
  | word (read : List Char)
  /-- In a number. -/
  | numeral (read : List Char)
  /-- In a string. -/
  | string (read : List Char)
  /-- After the backslash of an escape. -/
  | escape (read : List Char)
  /-- In the hexadecimal digits of an escape, `missing` of them still to come. `high` is the first half of a pair. -/
  | hex (read : List Char) (high : Option Nat) (value missing : Nat)
  /-- After the first half of a pair, before the backslash of the second. -/
  | pair (read : List Char) (high : Nat)
  /-- After the backslash of the second half of a pair. -/
  | pairEscape (read : List Char) (high : Nat)

namespace Scan

def isSpace (c : Char) : Bool := c = ' ' || c = '\n' || c = '\t' || c = '\r'

def isNumeral (c : Char) : Bool :=
  Numeral.isDigit c || c = '-' || c = '+' || c = '.' || c = 'e' || c = 'E'

def isLetter (c : Char) : Bool := 'a' ≤ c && c ≤ 'z'

/-- The keyword that was read, in reverse. -/
def keyword? (read : List Char) : Option Token :=
  match String.ofList read.reverse with
  | "null" => some .null
  | "true" => some (.bool true)
  | "false" => some (.bool false)
  | _ => none

/-- The number that was read, in reverse. -/
def number? (read : List Char) : Option Token := (Number.ofChars? read.reverse).map .number

/-- The character that a one-letter escape stands for. -/
def escaped? : Char → Option Char
  | '"' => some '"'
  | '\\' => some '\\'
  | '/' => some '/'
  | 'b' => some '\x08'
  | 'f' => some '\x0c'
  | 'n' => some '\n'
  | 'r' => some '\r'
  | 't' => some '\t'
  | _ => none

def hexValue? (c : Char) : Option Nat :=
  if '0' ≤ c && c ≤ '9' then some (c.toNat - 48)
  else if 'a' ≤ c && c ≤ 'f' then some (c.toNat - 87)
  else if 'A' ≤ c && c ≤ 'F' then some (c.toNat - 55)
  else none

def isHighHalf (n : Nat) : Bool := 0xd800 ≤ n && n < 0xdc00

def isLowHalf (n : Nat) : Bool := 0xdc00 ≤ n && n < 0xe000

/-- What follows the digits of an escape: a half of a pair stands for nothing without the other half. -/
def afterHex (read : List Char) : Option Nat → Nat → Option Scan
  | none, n =>
    if isHighHalf n then some (.pair read n)
    else if isLowHalf n then none
    else some (.string (Char.ofNat n :: read))
  | some high, n =>
    if isLowHalf n then
      some (.string (Char.ofNat (0x10000 + (high - 0xd800) * 0x400 + (n - 0xdc00)) :: read))
    else none

/-- A character between two tokens. -/
def start (c : Char) : Option (List Token × Scan) :=
  if isSpace c then some ([], .between)
  else if c = '[' then some ([.openArray], .between)
  else if c = ']' then some ([.closeArray], .between)
  else if c = '\x7b' then some ([.openObject], .between)
  else if c = '\x7d' then some ([.closeObject], .between)
  else if c = ',' then some ([.comma], .between)
  else if c = ':' then some ([.colon], .between)
  else if c = '"' then some ([], .string [])
  else if isNumeral c then some ([], .numeral [c])
  else if isLetter c then some ([], .word [c])
  else none

/-- Ends the token `t?` and goes on with `c`. -/
def endWith (t? : Option Token) (c : Char) : Option (List Token × Scan) :=
  match t?, start c with
  | some t, some (ts, s) => some (t :: ts, s)
  | _, _ => none

/-- The tokens that the character ends, and what is being read after it. -/
def step : Scan → Char → Option (List Token × Scan)
  | .between, c => start c
  | .word read, c => if isLetter c then some ([], .word (c :: read)) else endWith (keyword? read) c
  | .numeral read, c => if isNumeral c then some ([], .numeral (c :: read)) else endWith (number? read) c
  | .string read, c =>
    if c = '"' then some ([.string (String.ofList read.reverse)], .between)
    else if c = '\\' then some ([], .escape read)
    else if c.toNat < 0x20 then none
    else some ([], .string (c :: read))
  | .escape read, c =>
    if c = 'u' then some ([], .hex read none 0 4)
    else (escaped? c).map fun d => ([], .string (d :: read))
  | .hex read high value missing, c =>
    (hexValue? c).bind fun d =>
      if missing ≤ 1 then (afterHex read high (16 * value + d)).map fun s => ([], s)
      else some ([], .hex read high (16 * value + d) (missing - 1))
  | .pair read high, c => if c = '\\' then some ([], .pairEscape read high) else none
  | .pairEscape read high, c => if c = 'u' then some ([], .hex read (some high) 0 4) else none

/-- The tokens that the end of the text ends. -/
def finish : Scan → Option (List Token)
  | .between => some []
  | .word read => (keyword? read).map fun t => [t]
  | .numeral read => (number? read).map fun t => [t]
  | _ => none

/-- The tokens of the text, after those in `found`, which are in reverse. -/
def run (found : List Token) : Scan → List Char → Option (List Token)
  | s, [] => s.finish.map fun ts => found.reverse ++ ts
  | s, c :: cs =>
    match s.step c with
    | some (ts, s') => run (ts.reverse ++ found) s' cs
    | none => none

end Scan

/-- The tokens of a text. -/
def tokens? (cs : List Char) : Option (List Token) := Scan.run [] .between cs

end Json

end DataBinding
