import DataBinding.Store

/-!
# Views of values

A view shows a value to the host: objects and streams by the names that the host has for them, an object without a name
by its content, and content no deeper than `View.maxDepth` objects.
-/

namespace DataBinding

inductive View
  | undefined
  | null
  | bool (b : Bool)
  | int (n : Int64)
  /-- A float by its bits, of which NaN has only one form. -/
  | float (bits : UInt64)
  | text (s : String)
  | array (items : List View)
  /-- An object that has a name. -/
  | object (name : String)
  /-- An object without a name. -/
  | content (members : List (String × View))
  /-- An object without a name, too deep to be shown. -/
  | deep
  /-- A stream, with its name if it has one. -/
  | stream (name : Option String)
  deriving BEq

namespace View

instance : Inhabited View := ⟨.undefined⟩

/-- How many objects without a name are shown inside each other. -/
def maxDepth : Nat := 20

mutual

/-- The view of a value, given the views of the objects in it and the names of streams. -/
def ofValue (ofObject : ObjectId → View) (streamName? : StreamId → Option String) : Value → View
  | .undefined => .undefined
  | .null => .null
  | .bool b => .bool b
  | .int n => .int n
  | .float x => .float x.toBits
  | .text s => .text s
  | .array items => .array (ofValues ofObject streamName? items)
  | .object o => ofObject o
  | .stream s => .stream (streamName? s)

def ofValues (ofObject : ObjectId → View) (streamName? : StreamId → Option String) : List Value → List View
  | [] => []
  | v :: vs => ofValue ofObject streamName? v :: ofValues ofObject streamName? vs

end

/-- The view of an object with at most `n` objects inside each other. -/
def ofObject (s : Store) (objectName? : ObjectId → Option String) (streamName? : StreamId → Option String) :
    Nat → ObjectId → View
  | n, o =>
    match objectName? o, n with
    | some name, _ => .object name
    | none, 0 => .deep
    | none, n + 1 =>
      .content ((s.object o).properties.entries.map fun e =>
        (e.1, ofValue (ofObject s objectName? streamName? n) streamName? e.2))

end View

end DataBinding
