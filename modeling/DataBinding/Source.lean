import DataBinding.Store

/-!
# Sources of change

A listener listens to a source: a property of an object, an observer of a stream, or a collection that the host notifies
by hand. The store keeps the listeners of each source; `listen` and `unlisten` change those of one source and no other
part of the store.
-/

namespace DataBinding

inductive Source
  | property (o : ObjectId) (name : String)
  | observer (o : ObserverId)
  | collection (c : CollectionId)
  deriving DecidableEq

namespace Source

def isObserver : Source → Bool
  | observer _ => true
  | _ => false

end Source

namespace Store

/-- Who listens to the source. -/
def listeners (s : Store) : Source → Listeners
  | .property o name => ((s.object o).listeners.get? name).getD {}
  | .observer o =>
    match s.observers.get? o with
    | some x => x.listeners
    | none => {}
  | .collection c => (s.collections.get? c).getD {}

/-- Registers a listener with the source, under the token that comes back. -/
def listen (s : Store) (l : Listener) : Source → Store × Nat
  | .property o name =>
    let (x, token) := (s.object o).watch name l
    (s.setObject o x, token)
  | .observer o =>
    match s.observers.get? o with
    | some x =>
      let (ls, token) := x.listeners.add l
      (s.setObserver o { x with listeners := ls }, token)
    | none => (s, 0)
  | .collection c =>
    let (ls, token) := ((s.collections.get? c).getD {}).add l
    ({ s with collections := s.collections.insert c ls }, token)

/-- Takes a registration away. -/
def unlisten (s : Store) (token : Nat) : Source → Store
  | .property o name => s.setObject o ((s.object o).unwatch name token)
  | .observer o =>
    { s with observers := s.observers.modify o fun x => { x with listeners := x.listeners.remove token } }
  | .collection c => { s with collections := s.collections.modify c fun ls => ls.remove token }

/-- Forgets the listeners of the source that are gone. -/
def sweep (s : Store) (alive : Listener → Bool) : Source → Store
  | .property o name => s.setObject o ((s.object o).sweep alive name)
  | .observer o =>
    { s with observers := s.observers.modify o fun x => { x with listeners := x.listeners.sweep alive } }
  | .collection c => { s with collections := s.collections.modify c (Listeners.sweep alive) }

end Store

end DataBinding
