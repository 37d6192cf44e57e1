import DataBinding.Session.Holding

/-!
# Changes

What happens when something changes: properties are written, sources notify their listeners, streams deliver events to
their sinks, bindings evaluate again. Each of these answers with a `Reaction`, the session after it together with the
tasks that it leaves to be done, the first one first.
-/

namespace DataBinding

structure Reaction where
  session : Session
  tasks : List Task := []

namespace Reaction

/-- Leaves more tasks, to be done after those that there are. -/
def andThen (r : Reaction) (tasks : List Task) : Reaction := { r with tasks := r.tasks ++ tasks }

end Reaction

namespace Session

/-! ### Notification -/

/-- Notifies the listeners of a source that are there now. -/
def notify (s : Session) (x : Source) (new previous : Value) : Reaction :=
  let store := s.store.sweep s.isPresent x
  { session := { s with store }, tasks := [.notify x new previous (store.listeners x).audience] }

/-- Writes a property. Its listeners are notified if the value is another one. -/
def write (s : Session) (o : ObjectId) (name : String) (v : Value) : Reaction :=
  let x := s.store.object o
  let s' := { s with store := s.store.setObject o (x.put name v) }
  if x.changes name v then s'.notify (.property o name) v (x.get name) else { session := s' }

/-! ### Evaluation -/

/-- Evaluates an expression with the collaborators of a system. -/
def evaluate (s : Session) (system : SystemId) (flags : EvalFlags) (scope : Scope) (host : Option Scope) (w : Watch)
    (e : Expr) : Session × List Read × Except ExpressionError Value :=
  match s.systems.get? system with
  | none => (s, [], .ok .undefined)
  | some y =>
    let ctx : EvalContext := { flags, scope, host, converters := y.converters, alive := s.isAlive }
    let (result, t) := (e.evaluate ctx w).run { store := s.store, registry := y.registry }
    ({ s with store := t.store, systems := s.systems.insert system { y with registry := t.registry } }, t.reads, result)

/-- The place that an expression denotes. -/
def destination (s : Session) (system : SystemId) (flags : EvalFlags) (scope : Scope) (host : Option Scope) (e : Expr)
    (v : Value) : Session × Except ExpressionError Expr.Destination :=
  match s.systems.get? system with
  | none => (s, .error (.notAssignable e.kind))
  | some y =>
    let ctx : EvalContext := { flags, scope, host, converters := y.converters, alive := s.isAlive }
    let (result, t) := (e.destination ctx v).run { store := s.store, registry := y.registry }
    ({ s with store := t.store, systems := s.systems.insert system { y with registry := t.registry } }, result)

/-- Writes a value to the place that an expression denotes. -/
def assign (s : Session) (system : SystemId) (flags : EvalFlags) (scope : Scope) (host : Option Scope) (e : Expr)
    (v : Value) : Except ExpressionError Reaction :=
  match s.destination system flags scope host e v with
  | (s, .ok d) => .ok (s.write d.object d.name d.value)
  | (_, .error x) => .error x

/-! ### Bindings -/

/-- The source that was read. -/
def sourceOf : Read → Source
  | .property o name => .property o name
  | .stream _ o => .observer o

/-- Enters what was read into a binding's record. -/
def observe (s : Session) (b : BindingId) (reads : List Read) : Session :=
  reads.foldl
    (fun s r =>
      match s.bindings.get? b with
      | none => s
      | some x =>
        let (store, observations) := x.observations.observe s.store (.binding b) (sourceOf r)
        { s with store, bindings := s.bindings.insert b { x with observations } })
    s

/-- Starts a round of reading and evaluates a binding's expression. -/
def readAgain (s : Session) (b : BindingId) (x : Binding) (y : Bound) : Session × Except ExpressionError Value :=
  let s := s.modifyBinding b fun x => { x with observations := x.observations.nextRound }
  let (s, reads, result) := s.evaluate x.system x.flags y.scope y.host .everything x.expression
  (s.observe b reads, result)

/-- Releases what the latest round of a binding did not read. -/
def clearStale (s : Session) (b : BindingId) : Session :=
  match s.bindings.get? b with
  | none => s
  | some x =>
    (s.modifyBinding b fun x => { x with observations := x.observations.fresh }).releaseAll x.observations.stale

/-- Releases everything that a binding observes. -/
def clearObservations (s : Session) (b : BindingId) : Session :=
  match s.bindings.get? b with
  | none => s
  | some x =>
    (s.modifyBinding b fun x => { x with observations := x.observations.cleared }).releaseAll x.observations.entries

/-- Writes a value to a binding's target. -/
def writeTarget (s : Session) (b : BindingId) (x : Binding) (v : Value) : Reaction :=
  (s.modifyBinding b fun x => { x with value := v }).write x.target x.property v

/-- Unbinds a binding, which then observes nothing. -/
def unbind (s : Session) (b : BindingId) : Session :=
  match s.bindings.get? b with
  | none => s
  | some x => if x.isBound then (s.modifyBinding b fun x => { x with state := none }).clearObservations b else s

/-- Binds a binding to its scopes. A binding that is bound to the scope already stays as it is. A failure leaves it
unbound, observing nothing. -/
def bind (s : Session) (b : BindingId) (x : Binding) (y : Bound) : Reaction × Except BindError Unit :=
  if x.state.any fun z => z.scope.id = y.scope.id then ({ session := s }, .ok ())
  else
    let s := (s.unbind b).modifyBinding b fun x => { x with state := some y }
    match s.readAgain b x y with
    | (s, .ok v) => ((s.clearStale b).writeTarget b x v, .ok ())
    | (s, .error e) =>
      ({ session := (s.modifyBinding b fun x => { x with state := none }).clearObservations b }, .error (.expression e))

/-- Evaluates a bound binding again, after something that it observes has changed. -/
def refresh (s : Session) (b : BindingId) : Reaction :=
  match s.bindings.get? b with
  | none => { session := s }
  | some x =>
    match x.state with
    | none => { session := s }
    | some y =>
      match s.readAgain b x y with
      | (s, .ok v) => ((s.clearStale b).modifyBinding b fun x => { x with lastError := none }).writeTarget b x v
      | (s, .error e) => { session := s.modifyBinding b fun x => { x with lastError := some (.expression e) } }

/-- Writes a value back through a binding's expression. -/
def updateSource (s : Session) (x : Binding) (v : Value) : Except BindError Reaction :=
  match x.state with
  | none => .error (.notBound x.property)
  | some y =>
    match s.assign x.system x.flags y.scope y.host x.expression v with
    | .ok r => .ok r
    | .error e => .error (.expression e)

/-! ### Listeners and sinks -/

/-- Tells a listener of a change. -/
def tell (s : Session) (new previous : Value) : Listener → Reaction
  | .binding b => (s.refresh b).andThen [.keep b.ref]
  | .recorder i =>
    match s.recorders.get? i with
    | none => { session := s }
    | some x =>
      let s := s.note (.change x.label (s.view new) (s.view previous))
      if x.actions.isEmpty || x.limit = 0 then { session := s }
      else
        { session := { s with recorders := s.recorders.insert i { x with limit := x.limit - 1 } }
          tasks := [.perform x.label x.actions, .keep i.ref] }

/-- Writes an event down for a sink of the host. -/
def noteEvent (s : Session) (label : String) : StreamEvent → Session
  | .next v => s.note (.next label (s.view v))
  | .error message => s.note (.error label message)
  | .complete => s.note (.complete label)

/-- Delivers an event to a sink. -/
def receive (s : Session) (e : StreamEvent) : Sink → Reaction
  | .observer o =>
    match s.store.observers.get? o with
    | none => { session := s }
    | some x =>
      let (x', change) := x.receive e
      let s := { s with store := s.store.setObserver o x' }
      match change with
      | none => { session := s }
      | some (new, previous) => (s.notify (.observer o) new previous).andThen [.keep o.ref]
  | .handler k =>
    match s.handlers.get? k with
    | none => { session := s }
    | some x =>
      let s := s.noteEvent x.label e
      if x.actions.isEmpty || x.limit = 0 then { session := s }
      else
        { session := { s with handlers := s.handlers.insert k { x with limit := x.limit - 1 } }
          tasks := [.perform x.label x.actions] }

/-- Emits a value from a subject. -/
def emit (s : Session) (i : StreamId) (v : Value) : Reaction :=
  match s.store.streams.get? i with
  | some (.subject x) =>
    let (x', sinks) := x.emit v
    { session := { s with store := s.store.setStream i (.subject x') }, tasks := [.deliver i (.next v) sinks] }
  | _ => { session := s }

/-- Ends a subject. -/
def terminate (s : Session) (i : StreamId) (e : StreamEvent) : Reaction :=
  match s.store.streams.get? i with
  | some (.subject x) =>
    let (x', sinks) := x.terminate e
    { session := { s with store := s.store.setStream i (.subject x') }, tasks := [.deliver i e sinks] }
  | _ => { session := s }

end Session

end DataBinding
