import DataBinding.Session

/-!
# What the host means

The host writes values and names things by the names that it gave them. Here both are looked up in a session; a name
that nothing has means nothing.
-/

namespace DataBinding

namespace Session

/-! ### Values -/

mutual

/-- The value that the host writes, if all the names in it are known. -/
def valueOf? (s : Session) : HostValue → Option (Session × Value)
  | .undefined => some (s, .undefined)
  | .null => some (s, .null)
  | .bool b => some (s, .bool b)
  | .int n => some (s, .int n)
  | .float x => some (s, .float x)
  | .text t => some (s, .text t)
  | .array items => do
    let (s, vs) ← valuesOf? s items
    return (s, .array vs)
  | .object name => (s.named? .object name).map fun o => (s, .object o)
  | .stream name => (s.named? .stream name).map fun i => (s, .stream i)
  | .json j =>
    let (store, v) := s.store.ofJson j
    some ({ s with store }, v)

def valuesOf? (s : Session) : List HostValue → Option (Session × List Value)
  | [] => some (s, [])
  | v :: vs => do
    let (s, v) ← valueOf? s v
    let (s, vs) ← valuesOf? s vs
    return (s, v :: vs)

end

/-- Properties with the values that the host writes. -/
def propertiesOf? (s : Session) : List (String × HostValue) → Option (Session × List (String × Value))
  | [] => some (s, [])
  | (name, v) :: ps => do
    let (s, v) ← s.valueOf? v
    let (s, ps) ← s.propertiesOf? ps
    return (s, (name, v) :: ps)

def eventOf? (s : Session) : HostEvent → Option (Session × StreamEvent)
  | .next v => (s.valueOf? v).map fun (s, v) => (s, .next v)
  | .error message => some (s, .error message)
  | .complete => some (s, .complete)

def eventsOf? (s : Session) : List HostEvent → Option (Session × List StreamEvent)
  | [] => some (s, [])
  | e :: es => do
    let (s, e) ← s.eventOf? e
    let (s, es) ← s.eventsOf? es
    return (s, e :: es)

/-- A new subject, which replays the latest value if it is given one. -/
def subjectOf? (s : Session) : Option HostValue → Option (Session × Subject)
  | none => some (s, {})
  | some v => (s.valueOf? v).map fun (s, v) => (s, { latest := some v, replays := true })

/-! ### Things -/

def source? (s : Session) : HostSource → Option Source
  | .property object name => (s.named? .object object).map fun o => .property o name
  | .observer name => (s.named? .observer name).map .observer
  | .collection name => (s.named? .collection name).map .collection

def scope? (s : Session) (name : String) : Option Scope := (s.named? .scope name).bind s.scopes.get?

/-- The levels around a new scope. -/
def outer? (s : Session) : Option String → Option (List Level)
  | none => some []
  | some name => (s.scope? name).map Scope.levels

/-- The override context of a new scope: the object with the name, or else a new one. -/
def override? (s : Session) : Option String → Option (Session × ObjectId)
  | none =>
    let (store, o) := s.store.newObject ∅
    some ({ s with store }, o)
  | some name => (s.named? .object name).map fun o => (s, o)

/-- The scope of the host that a command names, if it names one. -/
def host? (s : Session) : Option String → Option (Option Scope)
  | none => some none
  | some name => (s.scope? name).map some

def system? (s : Session) (name : String) : Option (SystemId × System) := do
  let i ← s.named? .system name
  let y ← s.systems.get? i
  return (i, y)

def binding? (s : Session) (name : String) : Option (BindingId × Binding) := do
  let i ← s.named? .binding name
  let b ← s.bindings.get? i
  return (i, b)

def record? (s : Session) (name : String) : Option (RecordId × Observations) := do
  let i ← s.named? .record name
  let r ← s.records.get? i
  return (i, r)

end Session

end DataBinding
