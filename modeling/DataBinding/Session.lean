import DataBinding.Binding
import DataBinding.Session.Command
import DataBinding.Session.Reply

/-!
# Sessions

A session is everything that the host and its bindings share: the store, the systems, bindings, recorders, sinks and
records, the names by which the host holds them, and the work that is under way. Work is a stack of tasks, the next one
on top. A notification that is interrupted by another one waits below it, so a change is told in full before whatever
caused it goes on.
-/

namespace DataBinding

/-- A listener of the host, which writes down each change and then carries out its actions as often as its limit
allows. -/
structure Recorder where
  label : String
  actions : List Command
  limit : Nat

/-- A sink of the host, which writes down each event and then carries out its actions as often as its limit allows. -/
structure Handler where
  label : String
  actions : List Command
  limit : Nat
  /-- What is released when the host gives the sink up. -/
  subscription : Subscription

/-- What the host calls a thing. The sorts have names of their own. -/
structure Handle where
  thing : Thing
  name : String
  deriving DecidableEq

instance : Ord Handle := ⟨compareLex (compareOn Handle.thing) (compareOn Handle.name)⟩

instance : Std.TransOrd Handle :=
  inferInstanceAs (Std.TransCmp (compareLex (compareOn Handle.thing) (compareOn Handle.name)))

instance : Std.LawfulEqOrd Handle where
  eq_of_compare {a b} h := by
    obtain ⟨ht, hn⟩ := Ordering.then_eq_eq.1 h
    cases a
    cases b
    exact congr (congrArg Handle.mk (Std.LawfulEqOrd.eq_of_compare ht)) (Std.LawfulEqOrd.eq_of_compare hn)

inductive Task
  /-- Tell the rest of the listeners of a change. -/
  | notify (source : Source) (new previous : Value) (rest : List Listener)
  /-- Deliver an event to the rest of the sinks of a stream. -/
  | deliver (stream : StreamId) (event : StreamEvent) (rest : List Sink)
  /-- Carry out the rest of the actions of a listener or a sink. -/
  | perform (label : String) (rest : List Command)
  /-- Write down the reply to an action. -/
  | report (label : String) (reply : Reply)
  /-- Hold a thing until here. -/
  | keep (r : Ref)
  /-- Give a name to a sink, now that it has been told what the stream holds. -/
  | adopt (name : String) (sink : SinkId)

structure Session where
  store : Store := {}
  systems : Table SystemId System := ∅
  scopes : Table ScopeId Scope := ∅
  bindings : Table BindingId Binding := ∅
  recorders : Table RecorderId Recorder := ∅
  handlers : Table SinkId Handler := ∅
  records : Table RecordId Observations := ∅
  /-- The things that the host holds. -/
  names : Table Handle Nat := ∅
  /-- The registrations that the host remembers. -/
  tokens : Table String Nat := ∅
  /-- The work under way, the next task first. -/
  pending : List Task := []
  log : List LogEntry := []

namespace Session

instance : Inhabited Session := ⟨{}⟩

/-! ### Names -/

/-- The thing of sort `k` that has the name. -/
def named? (s : Session) (k : Thing) (name : String) : Option (Id k) := (s.names.get? ⟨k, name⟩).map Id.mk

/-- The names of a thing, in their order. -/
def namesOf (s : Session) (r : Ref) : List String :=
  (s.names.entries.filter fun e => e.1.thing = r.thing ∧ e.2 = r.number).map fun e => e.1.name

/-- The first of the names of a thing. -/
def nameOf? (s : Session) (r : Ref) : Option String := (s.namesOf r).head?

def isNamed (s : Session) (r : Ref) : Bool :=
  s.names.entries.any fun e => e.1.thing = r.thing ∧ e.2 = r.number

/-! ### Looking things up and writing them down -/

def view (s : Session) (v : Value) : View :=
  let objectName? (o : ObjectId) := s.nameOf? o.ref
  let streamName? (i : StreamId) := s.nameOf? i.ref
  View.ofValue (View.ofObject s.store objectName? streamName? View.maxDepth) streamName? v

def note (s : Session) (e : LogEntry) : Session := { s with log := s.log ++ [e] }

/-- A number that no thing has yet. -/
def fresh (s : Session) : Session × Nat :=
  ({ s with store := { s.store with fresh := s.store.fresh + 1 } }, s.store.fresh)

/-- Whether a listener still exists. -/
def isPresent (s : Session) : Listener → Bool
  | .binding b => s.bindings.contains b
  | .recorder r => s.recorders.contains r

def modifyBinding (s : Session) (b : BindingId) (f : Binding → Binding) : Session :=
  { s with bindings := s.bindings.modify b f }

end Session

end DataBinding
