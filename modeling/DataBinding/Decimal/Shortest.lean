/-!
# The shortest decimal that reads back

A finite double is `mantissa * 2 ^ exponent`, and every real number nearer to it than to its neighbours reads back as
it; an end of that interval does so too iff the mantissa is even. `Binary.shortest` finds the decimal in the interval
with the fewest digits, and of those with equally many the nearest. On the grid of the multiples of `10 ^ k` it is
enough to look at the two grid points beside the value: if any grid point lies in the interval, one of these two does.
-/

namespace DataBinding

/-- The number `digits * 10 ^ exponent`. -/
structure Decimal where
  digits : Nat
  exponent : Int
  deriving DecidableEq

/-- Which way a decimal half-way between two candidates goes. -/
inductive Tie
  | even | up
  deriving DecidableEq

/-- The number `mantissa * 2 ^ exponent`. It is `tight` if the next smaller double is only half as far away as the next
greater one. -/
structure Binary where
  mantissa : Nat
  exponent : Int
  tight : Bool
  deriving DecidableEq

namespace Binary

/-- The magnitude of a finite double. -/
def ofFloat (x : Float) : Binary :=
  let bits := x.toBits.toNat
  let biased : Nat := bits / Nat.pow 2 52 % Nat.pow 2 11
  let fraction : Nat := bits % Nat.pow 2 52
  if biased = 0 then ⟨fraction, -1074, false⟩
  else ⟨fraction + Nat.pow 2 52, (biased : Int) - 1075, fraction == 0 && 1 < biased⟩

/-- A quotient `num / den` of naturals that equals the number. -/
def ratio (x : Binary) : Nat × Nat :=
  (x.mantissa * Nat.pow 2 x.exponent.toNat, Nat.pow 2 (-x.exponent).toNat)

/-- Whether `10 ^ k` is at most `num / den`. -/
def powerLE (k : Int) (num den : Nat) : Bool :=
  decide (Nat.pow 10 k.toNat * den ≤ num * Nat.pow 10 (-k).toNat)

/-- The greatest `k` with `10 ^ k` at most the number: the binary logarithm fixes it up to one. -/
def decade (x : Binary) : Int :=
  let (num, den) := x.ratio
  let guess := (((num.log2 : Int) - den.log2) * 30103) / 100000
  if powerLE (guess + 1) num den then guess + 1
  else if powerLE guess num den then guess
  else guess - 1

/-- The multiple of `10 ^ k` among the two beside the number that reads back as it; the nearer one if both do. -/
def onGrid? (x : Binary) (tie : Tie) (k : Int) : Option Nat :=
  let up := Nat.pow 2 (x.exponent - 2).toNat * Nat.pow 10 (-k).toNat
  let grid := Nat.pow 2 (2 - x.exponent).toNat * Nat.pow 10 k.toNat
  let value := 4 * x.mantissa * up
  let low := (4 * x.mantissa - if x.tight then 1 else 2) * up
  let high := (4 * x.mantissa + 2) * up
  let inside (d : Nat) : Bool :=
    if x.mantissa % 2 == 0 then low ≤ d * grid && d * grid ≤ high else low < d * grid && d * grid < high
  let d := value / grid
  let below := value - d * grid
  let above := (d + 1) * grid - value
  match inside d, inside (d + 1) with
  | false, false => none
  | true, false => some d
  | false, true => some (d + 1)
  | true, true =>
    if below < above then some d
    else if above < below then some (d + 1)
    else match tie with
      | .even => some (if d % 2 = 0 then d else d + 1)
      | .up => some (d + 1)

/-- Tries the grids from coarse to fine, the first of them with spacing `10 ^ k`. -/
def firstOnGrid (x : Binary) (tie : Tie) : Nat → Int → Decimal
  | 0, k => ⟨0, k⟩
  | n + 1, k =>
    match x.onGrid? tie k with
    | some d => ⟨d, k⟩
    | none => x.firstOnGrid tie n (k - 1)

/-- The fewest digits that read back as the number; seventeen always do. The first grid is one coarser than the leading
digit, for a number that rounds up to a power of ten. -/
def shortest (x : Binary) (tie : Tie) : Decimal :=
  if x.mantissa = 0 then ⟨0, 0⟩ else x.firstOnGrid tie 18 (x.decade + 1)

end Binary

end DataBinding
