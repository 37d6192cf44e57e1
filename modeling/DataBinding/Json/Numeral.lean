import DataBinding.Json
import DataBinding.Decimal.Reading

/-!
# JSON numbers

The spelling of a number decides its type: digits alone are an integer if they fit in 64 bits, and everything else is a
double. The double is found in two roundings: the digits are gathered into a significand below `2 ^ 64`, digits that do
not fit any more are dropped, and the significand is then multiplied or divided by one power of ten. A number beyond the
range of doubles is refused.
-/

namespace DataBinding

namespace Json

/-- The parts of a number's spelling; `fraction?` and `exponent?` are there iff a point or a mark is. -/
structure Spelling where
  negative : Bool
  whole : List Char
  fraction? : Option (List Char)
  exponent? : Option Int

namespace Spelling

/-- The whole digits: a zero alone, or digits that start with another one. -/
def wholeOK : List Char → Bool
  | ['0'] => true
  | '0' :: _ => false
  | ds => !ds.isEmpty

def exponentOf? : List Char → Option (Option Int)
  | [] => some none
  | cs => (Numeral.exponent? cs).map some

/-- The parts of the spelling, if it is one. -/
def ofChars? (cs : List Char) : Option Spelling :=
  let (negative, body) := match cs with
    | '-' :: r => (true, r)
    | r => (false, r)
  let whole := body.takeWhile Numeral.isDigit
  if !wholeOK whole then none
  else match body.dropWhile Numeral.isDigit with
    | '.' :: r =>
      let fraction := r.takeWhile Numeral.isDigit
      if fraction.isEmpty then none
      else (exponentOf? (r.dropWhile Numeral.isDigit)).map fun e => ⟨negative, whole, some fraction, e⟩
    | r => (exponentOf? r).map fun e => ⟨negative, whole, none, e⟩

/-- The digits of a significand and the digits left over once the next one would reach `2 ^ 64`. -/
def gather : Nat → List Char → Nat × List Char
  | s, [] => (s, [])
  | s, c :: cs =>
    let t := 10 * s + Numeral.digitValue c
    if t < UInt64.size then gather t cs else (s, c :: cs)

/-- The significand and its power of ten: dropped whole digits raise the power, gathered fraction digits lower it. -/
def significand (x : Spelling) : Nat × Int :=
  let (s, dropped) := gather 0 x.whole
  let fraction := x.fraction?.getD []
  let (t, rest) := gather s fraction
  (t, (dropped.length : Int) - ((fraction.length - rest.length : Nat) : Int) + x.exponent?.getD 0)

def power (e : Nat) : Float := Float.ofScientific 1 false e

/-- `s * 10 ^ e` as a double, with one rounding for `s` and one for each power of ten. -/
def scale? (s : Nat) (e : Int) : Option Float :=
  let x := Float.ofNat s
  if s = 0 then some 0.0
  else if 308 < e then none
  else if 0 ≤ e then
    let y := x * power e.natAbs
    if y.isInf then none else some y
  else if -308 ≤ e then some (x / power e.natAbs)
  else if -616 ≤ e then some (x / power 308 / power (e + 308).natAbs)
  else some 0.0

/-- The number with the spelling. -/
def number? (x : Spelling) : Option Number :=
  let n : Int := if x.negative then -(Numeral.value x.whole : Int) else Numeral.value x.whole
  let fits := if x.negative then Int64.minValue.toInt ≤ n && n < 0 else n < UInt64.size
  if x.fraction?.isNone && x.exponent?.isNone && fits then some (.int n)
  else
    let (s, e) := x.significand
    (scale? s e).map fun y => .float (if x.negative then -y else y)

end Spelling

/-- The number that the characters spell. -/
def Number.ofChars? (cs : List Char) : Option Number := (Spelling.ofChars? cs).bind Spelling.number?

end Json

end DataBinding
