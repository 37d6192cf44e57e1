import DataBinding.Decimal.Binary
import DataBinding.Decimal.Reading
import DataBinding.Expr
import DataBinding.Text.Blank

/-!
# Operators on values

Arithmetic on two integers stays with integers as long as the result is one and fits in 64 bits, and goes on with floats
otherwise. Every other value is turned into a float first.
-/

namespace DataBinding

namespace Operator

/-- The value as a number: texts are read, null counts as zero, undefined and things are no number. -/
def toNumber : Value → Float
  | .null => 0.0
  | .bool b => if b then 1.0 else 0.0
  | .text s =>
    match Text.trimBlanks s.toList with
    | [] => 0.0
    | cs => (Numeral.float? cs).getD (0.0 / 0.0)
  | .int n => Value.floatOf n
  | .float x => x
  | _ => 0.0 / 0.0

/-- The place in an array that the value denotes. -/
def index? : Value → Option Nat
  | .int n => if 0 ≤ n.toInt then some n.toInt.toNat else none
  | .text s => Numeral.index? s.toList
  | _ => none

/-- The integer as a word, if it fits. -/
def fit? (n : Int) : Option Int64 :=
  if Int64.minValue.toInt ≤ n ∧ n ≤ Int64.maxValue.toInt then some (Int64.ofInt n) else none

def unary (operation : UnaryOp) (v : Value) : Value :=
  match operation, v with
  | .not, v => .bool (!v.isTruthy)
  | .typeOf, v => .text v.typeName
  | .plus, .int n => .int n
  | .plus, v => .float (toNumber v)
  | .negate, .int n =>
    match fit? (-n.toInt) with
    | some m => .int m
    | none => .float (-Value.floatOf n)
  | .negate, v => .float (-toNumber v)

/-- The integer that the operation gives, if it gives one: a quotient without remainder, a remainder whose quotient
fits. -/
def integral? (operation : BinaryOp) (a b : Int) : Option Int64 :=
  match operation with
  | .add => fit? (a + b)
  | .sub => fit? (a - b)
  | .mul => fit? (a * b)
  | .div => if b ≠ 0 ∧ a.tmod b = 0 then fit? (a.tdiv b) else none
  | .mod => if b ≠ 0 ∧ (fit? (a.tdiv b)).isSome then fit? (a.tmod b) else none
  | _ => none

def floatArithmetic (operation : BinaryOp) (x y : Float) : Float :=
  match operation with
  | .add => x + y
  | .sub => x - y
  | .mul => x * y
  | .div => x / y
  | _ => Binary.remainder x y

/-- Addition, subtraction, multiplication, division and remainder. -/
def arithmetic (operation : BinaryOp) (a b : Value) : Value :=
  let general : Value := .float (floatArithmetic operation (toNumber a) (toNumber b))
  match a, b with
  | .int m, .int n =>
    match integral? operation m.toInt n.toInt with
    | some r => .int r
    | none => general
  | _, _ => general

def isThing : Value → Bool
  | .object _ | .stream _ | .array _ => true
  | _ => false

/-- Equality across sorts: undefined and null are equal to each other alone, texts are compared as texts, things as
values, all else as numbers. -/
def looseEq (a b : Value) : Bool :=
  if a.isNullish || b.isNullish then a.isNullish && b.isNullish
  else match a, b with
    | .text s, .text t => s == t
    | a, b => if isThing a || isThing b then a.equals b else toNumber a == toNumber b

def isNumber : Value → Bool
  | .int _ | .float _ => true
  | _ => false

/-- Equality within a sort, with integers and floats as one sort of numbers. -/
def strictEq (a b : Value) : Bool :=
  if isNumber a && isNumber b then toNumber a == toNumber b else a.equals b

/-- Two texts are compared by their characters, all else as numbers. -/
def compares (operation : BinaryOp) (a b : Value) : Bool :=
  match a, b with
  | .text s, .text t =>
    match operation with
    | .lt => s < t
    | .gt => t < s
    | .le => !(t < s)
    | _ => !(s < t)
  | a, b =>
    let x := toNumber a
    let y := toNumber b
    match operation with
    | .lt => x < y
    | .gt => y < x
    | .le => x ≤ y
    | _ => y ≤ x

/-- The value of an operation on two values. `has` says which names an object has. The two operations that may not need
their right side are not values of both sides. -/
def binary (has : ObjectId → String → Bool) (operation : BinaryOp) (a b : Value) : Value :=
  match operation with
  | .eq => .bool (looseEq a b)
  | .notEq => .bool (!looseEq a b)
  | .strictEq => .bool (strictEq a b)
  | .strictNotEq => .bool (!strictEq a b)
  | .lt | .gt | .le | .ge => .bool (compares operation a b)
  | .add => if a.isText || b.isText then .text (a.display ++ b.display) else arithmetic .add a b
  | .sub | .mul | .div | .mod => arithmetic operation a b
  | .isIn =>
    match b with
    | .object o => .bool (has o a.display)
    | .array items => .bool (match index? a with
      | some i => i < items.length
      | none => false)
    | _ => .bool false
  | .and | .or => .undefined

end Operator

end DataBinding
