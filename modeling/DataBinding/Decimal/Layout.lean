import DataBinding.Decimal.Shortest

/-!
# How a float is written

Two layouts share the digits of `Binary.shortest`. Text shown to a user is positional throughout, and a zero has no
sign there. A JSON number is positional from `1e-5` up to below `1e16` and has an exponent elsewhere, keeps the sign of
a zero, and always has a point or an exponent.
-/

namespace DataBinding

namespace Decimal

/-- The decimal with `n` zeros written as digits. -/
def zeros (n : Nat) : String := String.ofList (List.replicate n '0')

/-- The place of the decimal point, counted from the front of the digits. -/
def pointPlace (d : Decimal) : Int := (d.digits.repr.length : Int) + d.exponent

/-- Writes all places, and no point if there is no fraction. -/
def positional (d : Decimal) : String :=
  let digits := d.digits.repr
  if 0 ≤ d.exponent then
    if d.digits = 0 then "0" else digits ++ zeros d.exponent.toNat
  else if 0 < d.pointPlace then
    let cs := digits.toList
    String.ofList (cs.take d.pointPlace.toNat) ++ "." ++ String.ofList (cs.drop d.pointPlace.toNat)
  else "0." ++ zeros (-d.pointPlace).toNat ++ digits

/-- Writes one digit before the point and an exponent with its sign. -/
def withExponent (d : Decimal) : String :=
  let e := d.pointPlace - 1
  let sign := if e < 0 then "e-" else "e+"
  let mark := sign ++ e.natAbs.repr
  match d.digits.repr.toList with
  | c :: [] => String.ofList [c] ++ mark
  | c :: cs => String.ofList [c] ++ "." ++ String.ofList cs ++ mark
  | [] => mark

end Decimal

namespace FloatText

def isNegative (x : Float) : Bool := x.toBits >>> 63 = 1

/-- The float as a user sees it. -/
def display (x : Float) : String :=
  if x.isNaN then "NaN"
  else if x.isInf then if isNegative x then "-Infinity" else "Infinity"
  else
    let m := Binary.ofFloat x
    let digits := (m.shortest .up).positional
    if isNegative x && m.mantissa ≠ 0 then "-" ++ digits else digits

/-- The finite float as a JSON number. -/
def json (x : Float) : String :=
  let d := (Binary.ofFloat x).shortest .even
  let place := d.pointPlace
  let digits :=
    if 0 ≤ d.exponent && place ≤ 16 then d.positional ++ ".0"
    else if -5 < place && place ≤ 16 then d.positional
    else d.withExponent
  if isNegative x then "-" ++ digits else digits

end FloatText

end DataBinding
