/-!
# JSON values

A JSON value keeps the members of its objects in the order in which they were read, repetitions included. A number is
an integer or a double; which of the two is decided by its spelling.
-/

namespace DataBinding

/-- A number: an integer, or a double for every other spelling. -/
inductive Json.Number
  | int (n : Int)
  | float (x : Float)

inductive Json
  | null
  | bool (b : Bool)
  | number (n : Json.Number)
  | string (s : String)
  | array (items : List Json)
  | object (members : List (String × Json))

namespace Json

instance : Inhabited Json := ⟨.null⟩

def int (n : Int) : Json := .number (.int n)

def nat (n : Nat) : Json := .int n

def strings (ss : List String) : Json := .array (ss.map .string)

/-- The first member with the name. -/
def member? (name : String) : Json → Option Json
  | .object ms => ms.lookup name
  | _ => none

def text? : Json → Option String
  | .string s => some s
  | _ => none

def bool? : Json → Option Bool
  | .bool b => some b
  | _ => none

def items? : Json → Option (List Json)
  | .array items => some items
  | _ => none

/-- The integer, if the spelling was one. -/
def int? : Json → Option Int
  | .number (.int n) => some n
  | _ => none

/-- The natural number below `bound`, if the value is one. -/
def natBelow? (bound : Nat) : Json → Option Nat
  | .number (.int n) => if 0 ≤ n ∧ n < bound then some n.toNat else none
  | _ => none

end Json

end DataBinding
