import DataBinding.Session.Change
import DataBinding.Session.Lookup

/-!
# Carrying out commands

`Session.execute` carries out one command of the host: it answers with the session after it, with the reply, and with
the tasks that the command leaves to be done.
-/

namespace DataBinding

/-- The answer to a command. -/
structure Answer where
  session : Session
  reply : Reply := .done
  tasks : List Task := []

def Reaction.answer (r : Reaction) (reply : Reply) : Answer := { session := r.session, reply, tasks := r.tasks }

namespace Session

/-! ### Parts of answers -/

def readView (s : Session) : Read → ReadView
  | .property o name => .property (s.nameOf? o.ref) name
  | .stream i _ => .stream (s.nameOf? i.ref)

def bindingReply (s : Session) (b : Binding) : Reply :=
  .binding b.property b.flags b.expression.kind b.expression.isStreamAware (s.nameOf? b.target.ref)

/-- Makes a binding under a name. -/
def addBinding (s : Session) (name : String) (b : Binding) : Answer :=
  let (s, n) := s.fresh
  let s := { s with bindings := s.bindings.insert ⟨n⟩ b }.setName name ⟨.binding, n⟩
  { session := s, reply := s.bindingReply b }

/-- Lets the observers go that an evaluation was told of, in the order in which each was read last. -/
def letGoRead (s : Session) : List Read → Session
  | [] => s
  | .stream i o :: rs =>
    if rs.contains (.stream i o) then s.letGoRead rs else (s.letGoObserver o).letGoRead rs
  | .property .. :: rs => s.letGoRead rs

/-- Evaluates an expression on its own. The observers that it reads through are held until it is done. -/
def evaluateAlone (s : Session) (system : SystemId) (y : System) (place : Place) (scope : Scope) (host : Option Scope)
    (options : EvalOptions) (e : Expr) : Answer :=
  let rebased := if options.rebases then e.rebase y.config.marker else .ok e
  match rebased with
  | .error x => { session := s, reply := .failed (.expression x) }
  | .ok e =>
    let w := if options.tracks then Watch.everything else .nothing
    let (s, reads, result) := s.evaluate system place.flags scope host w e
    let reported := if options.tracks then some (reads.map s.readView) else none
    let reply := match result with
      | .ok v => Reply.evaluated (s.view v) v.display reported
      | .error x => .notEvaluated x reported
    { session := s.letGoRead reads, reply }

/-- The system's live observers are destroyed and its registry forgets them all. -/
def shutdown (s : Session) (system : SystemId) (y : System) : Session :=
  let live := (y.registry.liveEntries s.isAlive s.store).values
  let emptied := { y with registry := { y.registry with entries := ∅ } }
  live.foldl destroy { s with systems := s.systems.insert system emptied }

def quoted (t : String) : String := "\"" ++ t ++ "\""

/-- What a thing says of itself. -/
def describe? (s : Session) (name : String) : Described → Option String
  | .stream => do
    let i ← s.named? .stream name
    match ← s.store.streams.get? i with
    | .subject x =>
      return "Subject \x7b subscribers: " ++ toString x.sinks.length ++ ", replay: " ++ toString x.replays
        ++ ", closed: " ++ toString x.isClosed ++ " \x7d"
    | .cold .. => none
  | .sink => do
    let k ← s.handlers.get? (← s.named? .sink name)
    return "StreamSubscription \x7b closed: " ++ toString k.subscription.isClosed ++ " \x7d"
  | .collection => do
    let ls ← s.store.collections.get? (← s.named? .collection name)
    return "SubscriberCollection \x7b len: " ++ toString ls.size ++ " \x7d"
  | .record => do
    let (_, r) ← s.record? name
    return "ObservationRecord \x7b version: " ++ toString r.version.toNat ++ ", len: " ++ toString r.size ++ " \x7d"
  | .system => do
    let (_, y) ← s.system? name
    return "Services \x7b registry: StreamRegistry \x7b entries: " ++ toString y.registry.entries.size ++ ", opened: "
      ++ toString y.registry.opened ++ " \x7d, converters: ["
      ++ ", ".intercalate (y.converters.keys.map quoted) ++ "] \x7d"

/-! ### Making things -/

def answerMakeObject (s : Session) (name : String) (properties : List (String × HostValue)) : Option Answer := do
  let (s, ps) ← s.propertiesOf? properties
  let (store, o) := s.store.newObject (Table.ofList ps)
  return { session := { s with store }.setName name o.ref }

def answerMakeSubject (s : Session) (name : String) (initial : Option HostValue) : Option Answer := do
  let (s, x) ← s.subjectOf? initial
  let (store, i) := s.store.newStream (.subject x)
  return { session := { s with store }.setName name i.ref }

def answerMakeCold (s : Session) (name : String) (events : List HostEvent) : Option Answer := do
  let (s, es) ← s.eventsOf? events
  let (store, i) := s.store.newStream (.cold name es)
  return { session := { s with store }.setName name i.ref }

def answerMakeScope (s : Session) (name context : String) (parent override : Option String) : Option Answer := do
  let context ← s.named? .object context
  let outer ← s.outer? parent
  let (s, override) ← s.override? override
  let (s, n) := s.fresh
  let scope : Scope := { id := ⟨n⟩, inner := { context, override }, outer }
  return { session := { s with scopes := s.scopes.insert ⟨n⟩ scope }.setName name ⟨.scope, n⟩ }

def answerMakeSystem (s : Session) (name : String) (config : Config) : Option Answer :=
  match config.validate with
  | .error e => some { session := s, reply := .failed (.config e) }
  | .ok () =>
    let (s, n) := s.fresh
    some
      { session := { s with systems := s.systems.insert ⟨n⟩ (System.ofConfig config) }.setName name ⟨.system, n⟩
        reply := .config config }

def answerMakeRecorder (s : Session) (name : String) (actions : List Command) (limit : Nat) : Option Answer :=
  let (s, n) := s.fresh
  let r : Recorder := { label := name, actions, limit }
  some { session := { s with recorders := s.recorders.insert ⟨n⟩ r }.setName name ⟨.recorder, n⟩ }

def answerMakeCollection (s : Session) (name : String) : Option Answer :=
  let (s, n) := s.fresh
  let store := { s.store with collections := s.store.collections.insert ⟨n⟩ {} }
  some { session := { s with store }.setName name ⟨.collection, n⟩ }

def answerMakeRecord (s : Session) (name : String) : Option Answer :=
  let (s, n) := s.fresh
  some { session := { s with records := s.records.insert ⟨n⟩ {} }.setName name ⟨.record, n⟩ }

def answerMakeFromAttribute (s : Session) (name system attr : String) (expression : HostExpr) (target : String) :
    Option Answer := do
  let (i, y) ← s.system? system
  let target ← s.named? .object target
  let failed (e : BindError) : Answer := { session := s, reply := .failed e }
  match expression with
  | .error e => return failed (.validation e)
  | .ok e =>
    match Attribute.parse attr "" with
    | .error x => return failed (.compile x)
    | .ok a =>
      match Instruction.compile y.config.marker a e with
      | .error x => return failed x
      | .ok instruction => return s.addBinding name (Binding.ofInstruction i y.config target instruction)

def answerMakeBinding (s : Session) (name system : String) (expression : HostExpr) (target property : String)
    (flags : EvalFlags) : Option Answer := do
  let (i, _) ← s.system? system
  let target ← s.named? .object target
  match expression with
  | .error e => return { session := s, reply := .failed (.validation e) }
  | .ok e => return s.addBinding name { system := i, expression := e, target, property, flags }

def answerAddConverter (s : Session) (system name : String) (c : StockConverter) : Option Answer := do
  let (i, y) ← s.system? system
  let y := { y with converters := y.converters.insert name c.converter }
  return { session := { s with systems := s.systems.insert i y } }

def answerDrop (s : Session) (what : Thing) (name : String) : Option Answer :=
  let h : Handle := ⟨what, name⟩
  match s.names.get? h with
  | none => some { session := s, reply := .flag false }
  | some n => some { session := { s with names := s.names.erase h }.letGo ⟨what, n⟩, reply := .flag true }

/-! ### Objects and listeners -/

def answerGet (s : Session) (object name : String) : Option Answer := do
  let o ← s.named? .object object
  return { session := s, reply := .value (s.view (s.store.property o name)) }

def answerHas (s : Session) (object name : String) : Option Answer := do
  let o ← s.named? .object object
  return { session := s, reply := .flag (s.store.hasProperty o name) }

def answerKeys (s : Session) (object : String) : Option Answer := do
  let o ← s.named? .object object
  return { session := s, reply := .keys (s.store.object o).properties.keys }

def answerSet (s : Session) (object name : String) (value : HostValue) : Option Answer := do
  let o ← s.named? .object object
  let (s, v) ← s.valueOf? value
  return (s.write o name v).answer (.flag ((s.store.object o).changes name v))

def answerSame (s : Session) (a b : String) : Option Answer := do
  let a ← s.named? .object a
  let b ← s.named? .object b
  return { session := s, reply := .flag (a = b) }

def answerListen (s : Session) (source : HostSource) (recorder token : String) : Option Answer := do
  let x ← s.source? source
  let r ← s.named? .recorder recorder
  let (store, t) := s.store.listen (.recorder r) x
  return { session := { s with store, tokens := s.tokens.insert token t } }

def answerUnlisten (s : Session) (source : HostSource) (token : String) : Option Answer := do
  let x ← s.source? source
  let t ← s.tokens.get? token
  return { session := s.unlisten x t, reply := .flag ((s.store.listeners x).has t) }

def answerNotify (s : Session) (collection : String) (new previous : HostValue) : Option Answer := do
  let c ← s.named? .collection collection
  let (s, new) ← s.valueOf? new
  let (s, previous) ← s.valueOf? previous
  return (s.notify (.collection c) new previous).answer .done

/-! ### Streams and observers -/

def answerNext (s : Session) (stream : String) (value : HostValue) : Option Answer := do
  let i ← s.named? .stream stream
  let (s, v) ← s.valueOf? value
  return (s.emit i v).answer .done

def answerFail (s : Session) (stream message : String) : Option Answer := do
  let i ← s.named? .stream stream
  return (s.terminate i (.error message)).answer .done

def answerComplete (s : Session) (stream : String) : Option Answer := do
  let i ← s.named? .stream stream
  return (s.terminate i .complete).answer .done

def answerSubscribe (s : Session) (name stream : String) (actions : List Command) (limit : Nat) : Option Answer := do
  let i ← s.named? .stream stream
  let (s, n) := s.fresh
  let k : SinkId := ⟨n⟩
  let (store, subscription, events) := s.store.subscribe i (.handler k)
  return {
    session := { s with store, handlers := s.handlers.insert k { label := name, actions, limit, subscription } }
    reply := .subscribed subscription.isClosed
    tasks := events.map (fun e => .deliver i e [.handler k]) ++ [.adopt name k] }

def answerUnsubscribe (s : Session) (sink : String) : Option Answer := do
  let k ← s.named? .sink sink
  let x ← s.handlers.get? k
  return { session := { s with handlers := s.handlers.insert k { x with subscription := .closed } }.close x.subscription }

def answerObserve (s : Session) (system stream : String) (name : Option String) : Option Answer := do
  let (i, y) ← s.system? system
  let stream ← s.named? .stream stream
  let (store, registry, o) := y.registry.observerFor s.isAlive s.store stream
  let s := { s with store, systems := s.systems.insert i { y with registry } }
  let reply := Reply.names (s.namesOf o.ref)
  match name with
  | some name => return { session := s.setName name o.ref, reply }
  | none => return { session := s.letGoObserver o, reply }

def answerPeek (s : Session) (system stream : String) : Option Answer := do
  let (_, y) ← s.system? system
  let stream ← s.named? .stream stream
  return { session := s, reply := .namesOf ((y.registry.get? s.store stream).map fun o => s.namesOf o.ref) }

def answerPrune (s : Session) (system : String) : Option Answer := do
  let (i, y) ← s.system? system
  let registry := y.registry.prune s.isAlive s.store
  return { session := { s with systems := s.systems.insert i { y with registry } }
           reply := .count (y.registry.entries.size - registry.entries.size) }

def answerShutdown (s : Session) (system : String) : Option Answer := do
  let (i, y) ← s.system? system
  return { session := s.shutdown i y }

def answerDestroy (s : Session) (observer : String) : Option Answer := do
  let o ← s.named? .observer observer
  return { session := s.destroy o }

def answerSetValue (s : Session) (observer : String) : Option Answer := do
  let _ ← s.named? .observer observer
  return { session := s, reply := .failed (.expression .readOnlyStream) }

/-! ### Expressions -/

def answerResolve (s : Session) (scope : String) (host : Option String) (name : String) (ancestor : Nat) :
    Option Answer := do
  let x ← s.scope? scope
  let host ← s.host? host
  let level := x.ancestor? ancestor
  return {
    session := s
    reply := .located ((DataBinding.resolve s.store.hasProperty x name ancestor host).bind fun o => s.nameOf? o.ref)
      (level.bind fun l => s.nameOf? l.context.ref)
      (level.map fun l => (s.store.object l.override).properties.keys) (!x.outer.isEmpty) }

def answerEvaluate (s : Session) (expression : HostExpr) (place : Place) (options : EvalOptions) : Option Answer := do
  let (i, y) ← s.system? place.system
  let scope ← s.scope? place.scope
  let host ← s.host? place.host
  match expression with
  | .error e => return { session := s, reply := .failed (.validation e) }
  | .ok e => return s.evaluateAlone i y place scope host options e

def answerAssign (s : Session) (expression : HostExpr) (place : Place) (value : HostValue) : Option Answer := do
  let (i, _) ← s.system? place.system
  let scope ← s.scope? place.scope
  let host ← s.host? place.host
  match expression with
  | .error e => return { session := s, reply := .failed (.validation e) }
  | .ok e =>
    let (s, v) ← s.valueOf? value
    match s.assign i place.flags scope host e v with
    | .ok r => return r.answer .accepted
    | .error x => return { session := s, reply := .notAssigned x }

/-! ### Bindings and records -/

def answerBind (s : Session) (binding scope : String) (host : Option String) : Option Answer := do
  let (b, x) ← s.binding? binding
  let scope ← s.scope? scope
  let host ← s.host? host
  match s.bind b x { scope, host } with
  | (r, .ok ()) => return (r.andThen [.keep b.ref]).answer .accepted
  | (r, .error e) => return r.answer (.failed e)

def answerUnbind (s : Session) (binding : String) : Option Answer := do
  let (b, _) ← s.binding? binding
  return { session := s.unbind b }

def answerUpdateSource (s : Session) (binding : String) (value : HostValue) : Option Answer := do
  let (b, x) ← s.binding? binding
  let (s, v) ← s.valueOf? value
  match s.updateSource x v with
  | .ok r => return (r.andThen [.keep b.ref]).answer .accepted
  | .error e => return { session := s, reply := .failed e }

def answerNextVersion (s : Session) (record : String) : Option Answer := do
  let (i, r) ← s.record? record
  return { session := { s with records := s.records.insert i r.nextRound }
           reply := .count r.nextRound.version.toNat }

def answerRecord (s : Session) (record : String) (source : HostSource) (recorder : String) : Option Answer := do
  let (i, r) ← s.record? record
  let x ← s.source? source
  let l ← s.named? .recorder recorder
  let (store, r) := r.observe s.store (.recorder l) x
  return { session := { s with store, records := s.records.insert i r } }

def answerClearStale (s : Session) (record : String) : Option Answer := do
  let (i, r) ← s.record? record
  return { session := { s with records := s.records.insert i r.fresh }.releaseAll r.stale
           reply := .count r.stale.length }

def answerClearRecord (s : Session) (record : String) : Option Answer := do
  let (i, r) ← s.record? record
  return { session := { s with records := s.records.insert i r.cleared }.releaseAll r.entries }

def answerDescribe (s : Session) (what : Described) (name : String) : Option Answer := do
  let t ← s.describe? name what
  return { session := s, reply := .text t }

/-! ### Commands -/

/-- The answer to a command; there is none if a name in it is not known. -/
def answer? (s : Session) : Command → Option Answer
  | .makeObject name properties => s.answerMakeObject name properties
  | .makeSubject name initial => s.answerMakeSubject name initial
  | .makeCold name events => s.answerMakeCold name events
  | .makeScope name context parent override => s.answerMakeScope name context parent override
  | .makeSystem name config => s.answerMakeSystem name config
  | .makeRecorder name actions limit => s.answerMakeRecorder name actions limit
  | .makeCollection name => s.answerMakeCollection name
  | .makeRecord name => s.answerMakeRecord name
  | .makeFromAttribute name system attr expression target =>
    s.answerMakeFromAttribute name system attr expression target
  | .makeBinding name system expression target property flags =>
    s.answerMakeBinding name system expression target property flags
  | .addConverter system name c => s.answerAddConverter system name c
  | .drop what name => s.answerDrop what name
  | .get object name => s.answerGet object name
  | .has object name => s.answerHas object name
  | .keys object => s.answerKeys object
  | .set object name value => s.answerSet object name value
  | .same a b => s.answerSame a b
  | .listen source recorder token => s.answerListen source recorder token
  | .unlisten source token => s.answerUnlisten source token
  | .notify collection new previous => s.answerNotify collection new previous
  | .next stream value => s.answerNext stream value
  | .fail stream message => s.answerFail stream message
  | .complete stream => s.answerComplete stream
  | .subscribe name stream actions limit => s.answerSubscribe name stream actions limit
  | .unsubscribe sink => s.answerUnsubscribe sink
  | .observe system stream name => s.answerObserve system stream name
  | .peek system stream => s.answerPeek system stream
  | .prune system => s.answerPrune system
  | .shutdown system => s.answerShutdown system
  | .destroy observer => s.answerDestroy observer
  | .setValue observer => s.answerSetValue observer
  | .resolve scope host name ancestor => s.answerResolve scope host name ancestor
  | .evaluate expression place options => s.answerEvaluate expression place options
  | .assign expression place value => s.answerAssign expression place value
  | .bind binding scope host => s.answerBind binding scope host
  | .unbind binding => s.answerUnbind binding
  | .updateSource binding value => s.answerUpdateSource binding value
  | .nextVersion record => s.answerNextVersion record
  | .record record source recorder => s.answerRecord record source recorder
  | .clearStale record => s.answerClearStale record
  | .clearRecord record => s.answerClearRecord record
  | .describe what name => s.answerDescribe what name

/-- Carries out a command. -/
def execute (s : Session) (c : Command) : Answer := (s.answer? c).getD { session := s, reply := .unknown }

end Session

end DataBinding
