import DataBinding.Json.Token

/-!
# Reading JSON

Tokens are put together with a stack of the arrays and objects that are still open. Each token either completes the
value at the top, opens a container, or is refused; `maxDepth` containers may be open at once.
-/

namespace DataBinding

namespace Json

/-- How many arrays and objects may stand inside one another. -/
def maxDepth : Nat := 127

/-- A container that waits for the value of an item or a member. What it holds already is kept in reverse. -/
inductive Open
  | array (items : List Json)
  | object (members : List (String × Json)) (key : String)

/-- What may come next. -/
inductive Reading
  /-- A value. -/
  | value (outer : List Open)
  /-- The first item of an array, or its end. -/
  | firstItem (outer : List Open)
  /-- The first key of an object, or its end. -/
  | firstKey (outer : List Open)
  /-- A key. -/
  | key (members : List (String × Json)) (outer : List Open)
  /-- The colon after a key. -/
  | colon (members : List (String × Json)) (key : String) (outer : List Open)
  /-- A comma or the end of an array. -/
  | afterItem (items : List Json) (outer : List Open)
  /-- A comma or the end of an object. -/
  | afterMember (members : List (String × Json)) (outer : List Open)
  /-- Nothing. -/
  | done (value : Json)

namespace Reading

/-- A value is complete. -/
def complete (j : Json) : List Open → Reading
  | [] => .done j
  | .array items :: outer => .afterItem (j :: items) outer
  | .object members name :: outer => .afterMember ((name, j) :: members) outer

/-- The first token of a value. -/
def begin (outer : List Open) : Token → Option Reading
  | .null => some (complete .null outer)
  | .bool b => some (complete (.bool b) outer)
  | .number n => some (complete (.number n) outer)
  | .string s => some (complete (.string s) outer)
  | .openArray => if outer.length < maxDepth then some (.firstItem outer) else none
  | .openObject => if outer.length < maxDepth then some (.firstKey outer) else none
  | _ => none

def step : Reading → Token → Option Reading
  | .value outer, t => begin outer t
  | .firstItem outer, .closeArray => some (complete (.array []) outer)
  | .firstItem outer, t => begin (.array [] :: outer) t
  | .firstKey outer, .closeObject => some (complete (.object []) outer)
  | .firstKey outer, .string k => some (.colon [] k outer)
  | .key members outer, .string k => some (.colon members k outer)
  | .colon members k outer, .colon => some (.value (.object members k :: outer))
  | .afterItem items outer, .comma => some (.value (.array items :: outer))
  | .afterItem items outer, .closeArray => some (complete (.array items.reverse) outer)
  | .afterMember members outer, .comma => some (.key members outer)
  | .afterMember members outer, .closeObject => some (complete (.object members.reverse) outer)
  | _, _ => none

def run : Reading → List Token → Option Reading
  | r, [] => some r
  | r, t :: ts =>
    match r.step t with
    | some r' => run r' ts
    | none => none

end Reading

/-- The value that the tokens spell. -/
def ofTokens? (ts : List Token) : Option Json :=
  match Reading.run (.value []) ts with
  | some (.done j) => some j
  | _ => none

/-- The value that the text spells. -/
def parse? (s : String) : Option Json := (tokens? s.toList).bind ofTokens?

end Json

end DataBinding
