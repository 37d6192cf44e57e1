import DataBinding.Decimal.Shortest

/-!
# Reading decimal text

`Decimal.toFloat` is the double nearest to a decimal. A `Numeral` is the spelling of a decimal as its parts; the text
of a number that users type is read by `Numeral.float?`, and the text of an index by `index?`.
-/

namespace DataBinding

/-- The double nearest to the decimal. Beyond the range of doubles the digits no longer matter. -/
def Decimal.toFloat (d : Decimal) : Float :=
  let place := (d.digits.repr.length : Int) + d.exponent
  if d.digits = 0 then 0.0
  else if 310 < place then 1.0 / 0.0
  else if place < -330 then 0.0
  else if d.exponent < 0 then Float.ofScientific d.digits true d.exponent.natAbs
  else Float.ofScientific d.digits false d.exponent.natAbs

namespace Numeral

def isDigit (c : Char) : Bool := '0' ≤ c && c ≤ '9'

def digitValue (c : Char) : Nat := c.toNat - '0'.toNat

/-- The natural number that the digits denote. -/
def value (ds : List Char) : Nat := ds.foldl (fun n c => 10 * n + digitValue c) 0

/-- A leading sign, and what follows it. -/
def splitSign : List Char → Bool × List Char
  | '-' :: cs => (true, cs)
  | '+' :: cs => (false, cs)
  | cs => (false, cs)

/-- The exponent that the text ends with: nothing, or a mark, an optional sign and digits. -/
def exponent? : List Char → Option Int
  | [] => some 0
  | c :: cs =>
    if c = 'e' ∨ c = 'E' then
      let (negative, ds) := splitSign cs
      if ds.isEmpty || !ds.all isDigit then none
      else some (if negative then -(value ds : Int) else value ds)
    else none

/-- An unsigned decimal: digits with an optional point before, within or after them, then an exponent. -/
def decimal? (cs : List Char) : Option Decimal :=
  let whole := cs.takeWhile isDigit
  let rest := cs.dropWhile isDigit
  let (fraction, tail) := match rest with
    | '.' :: r => (r.takeWhile isDigit, r.dropWhile isDigit)
    | r => ([], r)
  if whole.isEmpty && fraction.isEmpty then none
  else (exponent? tail).map fun e => ⟨value (whole ++ fraction), e - fraction.length⟩

def lower (c : Char) : Char := if 'A' ≤ c ∧ c ≤ 'Z' then Char.ofNat (c.toNat + 32) else c

/-- The float that the text denotes: an optional sign, then a decimal or one of the names of infinity and of the
value that is no number, in any mixture of cases. -/
def float? (cs : List Char) : Option Float :=
  let (negative, body) := splitSign cs
  let signed (x : Float) : Float := if negative then -x else x
  let name := String.ofList (body.map lower)
  if name = "inf" ∨ name = "infinity" then some (signed (1.0 / 0.0))
  else if name = "nan" then some (0.0 / 0.0)
  else (decimal? body).map fun d => signed d.toFloat

/-- The index that the text denotes: an optional plus sign and digits, below `2 ^ 64`. -/
def index? (cs : List Char) : Option Nat :=
  let ds := match cs with
    | '+' :: r => r
    | r => r
  if ds.isEmpty || !ds.all isDigit then none
  else if value ds < UInt64.size then some (value ds) else none

end Numeral

end DataBinding
