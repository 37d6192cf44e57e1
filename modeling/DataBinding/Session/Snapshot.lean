import DataBinding.Session.Holding

/-!
# Snapshots

A snapshot shows the state of everything that has a name. `Snapshot.changes` compares two of them.
-/

namespace DataBinding

/-- What is shown of a thing. -/
inductive Appearance
  /-- The properties, and how many listeners each property has that has any. -/
  | object (properties : List (String × View)) (listeners : List (String × Nat))
  | subject (sinks : Nat) (closed : Bool) (latest : Option View)
  | system (live opened : Nat)
  | binding (bound : Bool) (value : View) (observations streams : Nat) (error : Option BindError)
  | observer (state : ObserverState) (value : View) (listeners : Nat)
  | sink (closed : Bool)
  | collection (size : Nat)
  | record (version : UInt64) (size streams : Nat)
  deriving BEq

/-- What is shown, by the names of the things. -/
abbrev Snapshot := Table Handle Appearance

namespace Snapshot

/-- The appearances that are not as they were before; `none` for what is gone. -/
def changes (before after : Snapshot) : List (Handle × Option Appearance) :=
  ((before.entries.filter fun e => !after.contains e.1).map fun e => (e.1, none))
    ++ ((after.entries.filter fun e => before.get? e.1 != some e.2).map fun e => (e.1, some e.2))

end Snapshot

namespace Session

/-- What is shown of a thing. The listeners of an object are counted for the property names in `asked`. -/
def appearance? (s : Session) (asked : List String) (what : Thing) (n : Nat) : Option Appearance :=
  match what with
  | .object =>
    let x := s.store.object ⟨n⟩
    let counts := asked.map fun name => (name, x.watchers name)
    some (.object (x.properties.entries.map fun e => (e.1, s.view e.2)) (counts.filter fun c => c.2 ≠ 0))
  | .stream =>
    match s.store.streams.get? ⟨n⟩ with
    | some (.subject x) => some (.subject x.sinks.length x.isClosed (x.latest.map s.view))
    | _ => none
  | .system => (s.systems.get? ⟨n⟩).map fun y => .system (y.registry.size s.isAlive s.store) y.registry.opened
  | .binding =>
    (s.bindings.get? ⟨n⟩).map fun b =>
      .binding b.isBound (s.view b.value) b.observations.size b.observations.streamCount b.lastError
  | .observer => (s.store.observers.get? ⟨n⟩).map fun x => .observer x.state (s.view x.value) x.listeners.size
  | .sink => (s.handlers.get? ⟨n⟩).map fun k => .sink k.subscription.isClosed
  | .collection => (s.store.collections.get? ⟨n⟩).map fun ls => .collection ls.size
  | .record => (s.records.get? ⟨n⟩).map fun r => .record r.version r.size r.streamCount
  | .scope | .recorder => none

def snapshot (s : Session) (asked : List String) : Snapshot :=
  s.names.filterMap fun h n => s.appearance? asked h.thing n

/-- The names of the properties of the objects that have a name. -/
def propertyNames (s : Session) : List String :=
  s.names.entries.flatMap fun e => if e.1.thing = .object then (s.store.object ⟨e.2⟩).properties.keys else []

end Session

end DataBinding
