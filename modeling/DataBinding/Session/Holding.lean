import DataBinding.Session

/-!
# Holding and releasing

A binding, a recorder or an observer exists as long as something holds it: a name of the host, a task under way, or, for
an observer, a record that observes it. `letGo` is called whenever a hold was given up; the last hold takes the thing
with it, and what the thing held is released in turn. An object or a stream that nobody holds is merely out of reach;
`isAlive` tells which streams are held.
-/

namespace DataBinding

namespace Session

/-! ### Who holds what -/

/-- Whether a task under way holds the thing. -/
def isKept (s : Session) (r : Ref) : Bool :=
  s.pending.any fun
    | .keep r' => r' = r
    | _ => false

/-- The records of bindings and of the host. -/
def observations (s : Session) : List Observations :=
  s.bindings.values.map (·.observations) ++ s.records.values

/-- Whether a record has an entry for the source. -/
def isObserved (s : Session) (x : Source) : Bool := s.observations.any fun r => r.covers x

def isHeld (s : Session) (r : Ref) : Bool :=
  s.isNamed r || s.isKept r || (r.thing = .observer && s.isObserved (.observer ⟨r.number⟩))

/-! ### Releasing -/

/-- Releases a subscription. -/
def close (s : Session) : Subscription → Session
  | .closed => s
  | .subject i token =>
    { s with store := { s.store with streams := s.store.streams.modify i fun x => x.unsubscribe token } }
  | .cold label => s.note (.teardown label)

/-- Destroys an observer: its subscription is released, and it will not be handed out again. -/
def destroy (s : Session) (o : ObserverId) : Session :=
  match s.store.observers.get? o with
  | none => s
  | some x =>
    if x.isDestroyed then s
    else
      { s with store := s.store.setObserver o { x with state := .destroyed, subscription := .closed } }.close
        x.subscription

/-- Takes a registration away. An observer is destroyed when its last listener leaves. -/
def unlisten (s : Session) (x : Source) (token : Nat) : Session :=
  let removed := (s.store.listeners x).has token
  let s := { s with store := s.store.unlisten token x }
  match x with
  | .observer o => if removed && (s.store.listeners x).isEmpty then s.destroy o else s
  | _ => s

/-- Lets an observer go. -/
def letGoObserver (s : Session) (o : ObserverId) : Session :=
  if s.isHeld o.ref then s
  else match s.store.observers.get? o with
    | none => s
    | some x => { s with store := { s.store with observers := s.store.observers.erase o } }.close x.subscription

/-- Releases an entry that is no longer in any record. -/
def release (s : Session) (e : Observation) : Session :=
  let s := s.unlisten e.source e.token
  match e.source with
  | .observer o => s.letGoObserver o
  | _ => s

def releaseAll (s : Session) (es : List Observation) : Session := es.foldl release s

/-- Gives up one hold on a thing. -/
def letGo (s : Session) (r : Ref) : Session :=
  if s.isHeld r then s
  else match r.thing with
    | .observer => s.letGoObserver ⟨r.number⟩
    | .recorder => { s with recorders := s.recorders.erase ⟨r.number⟩ }
    | .binding =>
      match s.bindings.get? ⟨r.number⟩ with
      | none => s
      | some b => { s with bindings := s.bindings.erase ⟨r.number⟩ }.releaseAll b.observations.entries
    | .record =>
      match s.records.get? ⟨r.number⟩ with
      | none => s
      | some x => { s with records := s.records.erase ⟨r.number⟩ }.releaseAll x.entries
    | .sink =>
      match s.handlers.get? ⟨r.number⟩ with
      | none => s
      | some k =>
        { s with handlers := s.handlers.insert ⟨r.number⟩ { k with subscription := .closed } }.close k.subscription
    | .object | .stream | .scope | .system | .collection => s

/-- Gives a thing a name. A thing that had it before is let go. -/
def setName (s : Session) (name : String) (r : Ref) : Session :=
  let h : Handle := ⟨r.thing, name⟩
  let s' := { s with names := s.names.insert h r.number }
  match s.names.get? h with
  | none => s'
  | some n => s'.letGo ⟨r.thing, n⟩

/-! ### Which streams are held -/

/-- Objects and streams, which values hold. -/
inductive Shared
  | object (o : ObjectId)
  | stream (i : StreamId)
  deriving DecidableEq

def Shared.number : Shared → Nat
  | object o => o.number
  | stream i => i.number

mutual

/-- The objects and streams in a value. -/
def sharedIn : Value → List Shared
  | .object o => [.object o]
  | .stream i => [.stream i]
  | .array items => sharedInAll items
  | .undefined | .null | .bool _ | .int _ | .float _ | .text _ => []

def sharedInAll : List Value → List Shared
  | [] => []
  | v :: vs => sharedIn v ++ sharedInAll vs

end

def sharedInEvent : StreamEvent → List Shared
  | .next v => sharedIn v
  | .error _ | .complete => []

def sharedInScope (x : Scope) : List Shared := x.levels.flatMap fun l => [.object l.context, .object l.override]

def sharedInSource : Source → List Shared
  | .property o _ => [.object o]
  | .observer _ | .collection _ => []

def sharedInTask : Task → List Shared
  | .notify x new previous _ => sharedInSource x ++ sharedIn new ++ sharedIn previous
  | .deliver i e _ => .stream i :: sharedInEvent e
  | .perform .. | .report .. | .keep _ | .adopt .. => []

def sharedInRecord (r : Observations) : List Shared := r.entries.flatMap fun e => sharedInSource e.source

def sharedInBinding (b : Binding) : List Shared :=
  .object b.target :: sharedIn b.value ++ sharedInRecord b.observations ++
    match b.state with
    | none => []
    | some x => sharedInScope x.scope ++ x.host.toList.flatMap sharedInScope

def sharedInObject (x : Object) : List Shared := x.properties.values.flatMap sharedIn

def sharedInStream : Stream → List Shared
  | .subject x => x.latest.toList.flatMap sharedIn ++ x.terminal.toList.flatMap sharedInEvent
  | .cold _ events => events.flatMap sharedInEvent

/-- What an object or a stream holds. -/
def contents (s : Store) : Shared → List Shared
  | .object o => sharedInObject (s.object o)
  | .stream i => ((s.streams.get? i).map sharedInStream).getD []

/-- What a name of the host holds. -/
def sharedInName (s : Session) (h : Handle) (number : Nat) : List Shared :=
  match h.thing with
  | .object => [.object ⟨number⟩]
  | .stream => [.stream ⟨number⟩]
  | .scope => (s.scopes.get? ⟨number⟩).toList.flatMap sharedInScope
  | _ => []

/-- What is held by anything but objects and streams. -/
def heldFromOutside (s : Session) : List Shared :=
  s.names.entries.flatMap (fun e => s.sharedInName e.1 e.2)
  ++ s.bindings.values.flatMap sharedInBinding
  ++ s.records.values.flatMap sharedInRecord
  ++ s.store.observers.values.flatMap (fun x => sharedIn x.value)
  ++ s.pending.flatMap sharedInTask

/-- Takes away, up to `n` times, what neither `outside` nor one of those that are left holds. -/
def heldAmong (contents : Shared → List Shared) (outside : List Shared) : Nat → List Shared → List Shared
  | 0, xs => xs
  | n + 1, xs =>
    let inside := xs.flatMap contents
    let ys := xs.filter fun x => outside.contains x || inside.contains x
    if ys.length = xs.length then xs else heldAmong contents outside n ys

/-- The objects and streams that something holds. Those that hold each other stay. -/
def held (s : Session) : List Shared :=
  let all := s.store.objects.keys.map Shared.object ++ s.store.streams.keys.map Shared.stream
  heldAmong (contents s.store) s.heldFromOutside all.length all

/-- Whether something holds the stream. -/
def isAlive (s : Session) (i : StreamId) : Bool := s.held.contains (.stream i)

end Session

end DataBinding
