import DataBinding.Stream

/-!
# Stream observers

An observer holds one subscription to a stream, keeps the latest value, and tells its listeners of each new one. It only
ever moves forward: it takes events while it is active, keeps its value when the stream ends, and is destroyed when its
subscription is given up.
-/

namespace DataBinding

inductive ObserverState
  | active | completed | errored | destroyed
  deriving DecidableEq

structure Observer where
  /-- The latest value; undefined before the first. -/
  value : Value := .undefined
  listeners : Listeners := {}
  subscription : Subscription := .closed
  state : ObserverState := .active

namespace Observer

def isActive (o : Observer) : Bool := o.state = .active

def isDestroyed (o : Observer) : Bool := o.state = .destroyed

/-- Takes an event. A new value comes with the change that the listeners are to be told: the value and the one it
replaced. -/
def receive (o : Observer) : StreamEvent → Observer × Option (Value × Value)
  | .next v => if o.isActive then ({ o with value := v }, some (v, o.value)) else (o, none)
  | .error _ => (if o.isActive then { o with state := .errored } else o, none)
  | .complete => (if o.isActive then { o with state := .completed } else o, none)

/-- Takes the events that come while it subscribes, when nobody listens yet. -/
def receiveAll (o : Observer) (es : List StreamEvent) : Observer := es.foldl (fun o e => (o.receive e).1) o

end Observer

end DataBinding
