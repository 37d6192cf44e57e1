import DataBinding.Decimal.Shortest

/-!
# Remainders of doubles

The remainder of a division that is cut off toward zero is a double itself, so it is found exactly: both magnitudes are
brought to one power of two and divided as natural numbers.
-/

namespace DataBinding

namespace Binary

/-- The double `m * 2 ^ e`, for a mantissa below `2 ^ 53` and an exponent within the range of doubles. -/
def encode (m : Nat) (e : Int) : Float :=
  if m = 0 then 0.0
  else
    let shift := min (52 - m.log2) (e + 1074).toNat
    let mantissa := m * Nat.pow 2 shift
    let exponent := e - shift
    if mantissa < Nat.pow 2 52 then Float.ofBits (UInt64.ofNat mantissa)
    else Float.ofBits (UInt64.ofNat ((exponent + 1075).toNat * Nat.pow 2 52 + (mantissa - Nat.pow 2 52)))

/-- The remainder of `x` by `y`, with the sign of `x`. -/
def remainder (x y : Float) : Float :=
  if x.isNaN || y.isNaN || x.isInf || y == 0.0 then 0.0 / 0.0
  else if y.isInf || x == 0.0 then x
  else
    let a := ofFloat x
    let b := ofFloat y
    let e := min a.exponent b.exponent
    let r := a.mantissa * Nat.pow 2 (a.exponent - e).toNat % (b.mantissa * Nat.pow 2 (b.exponent - e).toNat)
    if x < 0.0 then -encode r e else encode r e

end Binary

end DataBinding
