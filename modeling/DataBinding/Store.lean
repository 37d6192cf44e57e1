import DataBinding.Json
import DataBinding.Object
import DataBinding.Observer

/-!
# The store

The objects, streams, observers and collections of listeners that exist, each under its identity. New identities are
taken from a counter, so no two things ever share one.
-/

namespace DataBinding

structure Store where
  objects : Table ObjectId Object := ∅
  streams : Table StreamId Stream := ∅
  observers : Table ObserverId Observer := ∅
  collections : Table CollectionId Listeners := ∅
  /-- The next identity. -/
  fresh : Nat := 0

namespace Store

instance : Inhabited Store := ⟨{}⟩

def object (s : Store) (o : ObjectId) : Object := (s.objects.get? o).getD {}

/-- The value of a property. -/
def property (s : Store) (o : ObjectId) (name : String) : Value := (s.object o).get name

def hasProperty (s : Store) (o : ObjectId) (name : String) : Bool := (s.object o).has name

def setObject (s : Store) (o : ObjectId) (x : Object) : Store := { s with objects := s.objects.insert o x }

theorem object_setObject (s : Store) (o p : ObjectId) (x : Object) :
    (s.setObject o x).object p = if o = p then x else s.object p := by
  unfold object setObject
  rw [Table.get?_insert]
  split <;> simp

def setStream (s : Store) (i : StreamId) (x : Stream) : Store := { s with streams := s.streams.insert i x }

def setObserver (s : Store) (i : ObserverId) (x : Observer) : Store :=
  { s with observers := s.observers.insert i x }

/-- A new object with the given properties. -/
def newObject (s : Store) (properties : Table String Value) : Store × ObjectId :=
  let o : ObjectId := ⟨s.fresh⟩
  ({ s with fresh := s.fresh + 1, objects := s.objects.insert o { properties } }, o)

def newStream (s : Store) (x : Stream) : Store × StreamId :=
  let i : StreamId := ⟨s.fresh⟩
  ({ s with fresh := s.fresh + 1, streams := s.streams.insert i x }, i)

/-- A member of a value: a property of an object, the length of an array or a text. -/
def member (s : Store) (v : Value) (name : String) : Value :=
  match v with
  | .object o => s.property o name
  | .array items => if name = "length" then .int (Int64.ofNat items.length) else .undefined
  | .text t => if name = "length" then .int (Int64.ofNat t.length) else .undefined
  | _ => .undefined

/-- Subscribes a sink to a stream, and says what the sink is told at once. -/
def subscribe (s : Store) (i : StreamId) (sink : Sink) : Store × Subscription × List StreamEvent :=
  match s.streams.get? i with
  | some x =>
    let (x', subscription, events) := x.subscribe i sink
    (s.setStream i x', subscription, events)
  | none => (s, .closed, [])

/-- A new observer of the stream. Values delivered while it subscribes are its values before anybody can listen. -/
def openObserver (s : Store) (i : StreamId) : Store × ObserverId :=
  let o : ObserverId := ⟨s.fresh⟩
  let (s', subscription, events) := { s with fresh := s.fresh + 1 }.subscribe i (.observer o)
  (s'.setObserver o ({ subscription : Observer }.receiveAll events), o)

/-- Whether the observer exists and is not destroyed. -/
def isLive (s : Store) (o : ObserverId) : Bool :=
  match s.observers.get? o with
  | some x => !x.isDestroyed
  | none => false

mutual

/-- The value that a JSON value stands for, with a new object for each of its objects. -/
def ofJson (s : Store) : Json → Store × Value
  | .null => (s, .null)
  | .bool b => (s, .bool b)
  | .number (.int n) =>
    (s, if Int64.minValue.toInt ≤ n ∧ n ≤ Int64.maxValue.toInt then .int (Int64.ofInt n) else .float (Float.ofInt n))
  | .number (.float x) => (s, .float x)
  | .string t => (s, .text t)
  | .array items =>
    let (s', vs) := ofItems s items
    (s', .array vs)
  | .object members =>
    let (s', vs) := ofMembers s members
    let (s', o) := s'.newObject (Table.ofList vs)
    (s', .object o)

def ofItems (s : Store) : List Json → Store × List Value
  | [] => (s, [])
  | j :: js =>
    let (s', v) := ofJson s j
    let (s', vs) := ofItems s' js
    (s', v :: vs)

def ofMembers (s : Store) : List (String × Json) → Store × List (String × Value)
  | [] => (s, [])
  | (k, j) :: ms =>
    let (s', v) := ofJson s j
    let (s', vs) := ofMembers s' ms
    (s', (k, v) :: vs)

end

mutual

/-- The JSON of a value, given the JSON of the objects in it. Streams and undefined have none of their own. -/
def jsonWith (ofObject : ObjectId → Json) : Value → Json
  | .undefined | .null | .stream _ => .null
  | .bool b => .bool b
  | .int n => .int n.toInt
  | .float x => if x.isFinite then .number (.float x) else .null
  | .text t => .string t
  | .array items => .array (jsonsWith ofObject items)
  | .object o => ofObject o

def jsonsWith (ofObject : ObjectId → Json) : List Value → List Json
  | [] => []
  | v :: vs => jsonWith ofObject v :: jsonsWith ofObject vs

end

/-- The JSON of an object, for objects that are nested at most `n` deep. -/
def objectJson (s : Store) : Nat → ObjectId → Json
  | 0, _ => .null
  | n + 1, o => .object ((s.object o).properties.entries.map fun e => (e.1, jsonWith (objectJson s n) e.2))

/-- The JSON of a value. Objects that do not hold themselves are nested no deeper than there are objects. -/
def toJson (s : Store) (v : Value) : Json := jsonWith (s.objectJson (s.objects.size + 1)) v

end Store

end DataBinding
