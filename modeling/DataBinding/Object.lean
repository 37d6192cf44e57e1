import DataBinding.Listeners
import DataBinding.Table

/-!
# Observable objects

An object is a set of named properties, each of which can be listened to. Writing a value that equals the one before is
no change: the value is stored, and nobody is told.
-/

namespace DataBinding

structure Object where
  properties : Table String Value := ∅
  /-- The listeners of each property that has any. -/
  listeners : Table String Listeners := ∅

namespace Object

instance : Inhabited Object := ⟨{}⟩

/-- An absent property is undefined. -/
def get (o : Object) (name : String) : Value := (o.properties.get? name).getD .undefined

def has (o : Object) (name : String) : Bool := o.properties.contains name

def put (o : Object) (name : String) (v : Value) : Object := { o with properties := o.properties.insert name v }

theorem get_put (o : Object) (name other : String) (v : Value) :
    (o.put name v).get other = if name = other then v else o.get other := by
  unfold get put
  rw [Table.get?_insert]
  split <;> simp

theorem has_put (o : Object) (name other : String) (v : Value) :
    (o.put name v).has other = (name == other || o.has other) := by
  unfold has put Table.contains
  rw [Table.get?_insert]
  by_cases h : name = other <;> simp [h]

/-- Whether writing the value is a change. -/
def changes (o : Object) (name : String) (v : Value) : Bool := !(o.get name).equals v

def watchers (o : Object) (name : String) : Nat :=
  match o.listeners.get? name with
  | some ls => ls.size
  | none => 0

/-- Registers a listener of a property. -/
def watch (o : Object) (name : String) (l : Listener) : Object × Nat :=
  let (ls, token) := ((o.listeners.get? name).getD {}).add l
  ({ o with listeners := o.listeners.insert name ls }, token)

/-- Whether the token is registered with the property. -/
def isWatched (o : Object) (name : String) (token : Nat) : Bool :=
  match o.listeners.get? name with
  | some ls => ls.has token
  | none => false

/-- Takes a registration away. With the last one the property forgets its listeners, and its tokens start anew. -/
def unwatch (o : Object) (name : String) (token : Nat) : Object :=
  match o.listeners.get? name with
  | some ls =>
    let ls := ls.remove token
    { o with listeners := if ls.isEmpty then o.listeners.erase name else o.listeners.insert name ls }
  | none => o

/-- Forgets the listeners of a property that are gone. -/
def sweep (alive : Listener → Bool) (o : Object) (name : String) : Object :=
  { o with listeners := o.listeners.modify name (Listeners.sweep alive) }

end Object

end DataBinding
