import DataBinding.Json
import DataBinding.Decimal.Layout

/-!
# Writing JSON

Two layouts of the same tokens: `compress` has no blanks, `pretty` puts each item and each member on a line of its own,
indented by two blanks for each container around it. Characters outside ASCII are written as they are.
-/

namespace DataBinding

namespace Json

def hexDigit (n : Nat) : Char := if n < 10 then Char.ofNat (48 + n) else Char.ofNat (87 + n)

/-- How a character stands inside a string. -/
def escapeChar (c : Char) : List Char :=
  if c = '"' then ['\\', '"']
  else if c = '\\' then ['\\', '\\']
  else if c = '\x08' then ['\\', 'b']
  else if c = '\x0c' then ['\\', 'f']
  else if c = '\n' then ['\\', 'n']
  else if c = '\r' then ['\\', 'r']
  else if c = '\t' then ['\\', 't']
  else if c.toNat < 0x20 then ['\\', 'u', '0', '0', hexDigit (c.toNat / 16), hexDigit (c.toNat % 16)]
  else [c]

def quote (s : String) : List Char := '"' :: (s.toList.flatMap escapeChar ++ ['"'])

/-- A float that is no number or infinite has no JSON spelling and is written as null. -/
def Number.chars : Number → List Char
  | .int n => (toString n).toList
  | .float x => if x.isFinite then (FloatText.json x).toList else ['n', 'u', 'l', 'l']

mutual

/-- The value without blanks. -/
def compactChars : Json → List Char
  | .null => ['n', 'u', 'l', 'l']
  | .bool true => ['t', 'r', 'u', 'e']
  | .bool false => ['f', 'a', 'l', 's', 'e']
  | .number n => n.chars
  | .string s => quote s
  | .array items => '[' :: (compactItems items ++ [']'])
  | .object members => '\x7b' :: (compactMembers members ++ ['\x7d'])

def compactItems : List Json → List Char
  | [] => []
  | [j] => compactChars j
  | j :: js => compactChars j ++ ',' :: compactItems js

def compactMembers : List (String × Json) → List Char
  | [] => []
  | [(k, j)] => quote k ++ ':' :: compactChars j
  | (k, j) :: ms => quote k ++ ':' :: compactChars j ++ ',' :: compactMembers ms

end

/-- A new line, indented for `depth` containers. -/
def newLine (depth : Nat) : List Char := '\n' :: List.replicate (2 * depth) ' '

mutual

/-- The value over several lines, inside `depth` containers. -/
def prettyChars (depth : Nat) : Json → List Char
  | .null => ['n', 'u', 'l', 'l']
  | .bool true => ['t', 'r', 'u', 'e']
  | .bool false => ['f', 'a', 'l', 's', 'e']
  | .number n => n.chars
  | .string s => quote s
  | .array [] => ['[', ']']
  | .array items => '[' :: (prettyItems (depth + 1) items ++ newLine depth ++ [']'])
  | .object [] => ['\x7b', '\x7d']
  | .object members => '\x7b' :: (prettyMembers (depth + 1) members ++ newLine depth ++ ['\x7d'])

def prettyItems (depth : Nat) : List Json → List Char
  | [] => []
  | [j] => newLine depth ++ prettyChars depth j
  | j :: js => newLine depth ++ prettyChars depth j ++ ',' :: prettyItems depth js

def prettyMembers (depth : Nat) : List (String × Json) → List Char
  | [] => []
  | [(k, j)] => newLine depth ++ quote k ++ ':' :: ' ' :: prettyChars depth j
  | (k, j) :: ms =>
    newLine depth ++ quote k ++ ':' :: ' ' :: prettyChars depth j ++ ',' :: prettyMembers depth ms

end

/-- The text of the value without blanks. -/
def compress (j : Json) : String := String.ofList (compactChars j)

/-- The text of the value over several lines. -/
def pretty (j : Json) : String := String.ofList (prettyChars 0 j)

end Json

end DataBinding
