import DataBinding.Identity
import DataBinding.Decimal.Layout

/-!
# Values

What scopes, targets and streams hold. Objects and streams are values by identity; everything else is a value by
content, floats compared as numbers: `equals` tells no zero from the other and no NaN equal to itself.
-/

namespace DataBinding

inductive Value
  | undefined
  | null
  | bool (b : Bool)
  | int (n : Int64)
  | float (x : Float)
  | text (s : String)
  | array (items : List Value)
  | object (o : ObjectId)
  | stream (s : StreamId)

namespace Value

instance : Inhabited Value := ⟨.undefined⟩

mutual

/-- Equality of values: never across sorts, so an integer differs from every float. -/
def equals : Value → Value → Bool
  | .undefined, .undefined => true
  | .null, .null => true
  | .bool a, .bool b => a == b
  | .int a, .int b => a == b
  | .float a, .float b => a == b
  | .text a, .text b => a == b
  | .array as, .array bs => equalsAll as bs
  | .object a, .object b => a == b
  | .stream a, .stream b => a == b
  | _, _ => false

def equalsAll : List Value → List Value → Bool
  | [], [] => true
  | a :: as, b :: bs => equals a b && equalsAll as bs
  | _, _ => false

end

/-- Undefined or null. -/
def isNullish : Value → Bool
  | .undefined | .null => true
  | _ => false

def isText : Value → Bool
  | .text _ => true
  | _ => false

/-- What counts as true in a condition. -/
def isTruthy : Value → Bool
  | .undefined | .null => false
  | .bool b => b
  | .int n => n ≠ 0
  | .float x => x != 0.0 && !x.isNaN
  | .text s => s ≠ ""
  | .array _ | .object _ | .stream _ => true

/-- The empty text in place of undefined or null. -/
def orEmpty (v : Value) : Value := if v.isNullish then .text "" else v

def typeName : Value → String
  | .undefined => "undefined"
  | .null => "null"
  | .bool _ => "boolean"
  | .int _ | .float _ => "number"
  | .text _ => "string"
  | .array _ | .object _ => "object"
  | .stream _ => "stream"

/-- The double nearest to an integer. -/
def floatOf (n : Int64) : Float := Float.ofInt n.toInt

def bool? : Value → Option Bool
  | .bool b => some b
  | _ => none

def int? : Value → Option Int64
  | .int n => some n
  | _ => none

def text? : Value → Option String
  | .text s => some s
  | _ => none

def object? : Value → Option ObjectId
  | .object o => some o
  | _ => none

def stream? : Value → Option StreamId
  | .stream s => some s
  | _ => none

/-- The float, if the value is a number. -/
def float? : Value → Option Float
  | .float x => some x
  | .int n => some (floatOf n)
  | _ => none

mutual

/-- The value as a template shows it. -/
def display : Value → String
  | .undefined | .null => ""
  | .bool b => if b then "true" else "false"
  | .int n => toString n.toInt
  | .float x => FloatText.display x
  | .text s => s
  | .array items => displayAll items
  | .object _ => "[object Object]"
  | .stream _ => "[object Stream]"

/-- The items one after another, with a comma between two. -/
def displayAll : List Value → String
  | [] => ""
  | [v] => display v
  | v :: vs => display v ++ "," ++ displayAll vs

end

end Value

end DataBinding
