import DataBinding.Config
import DataBinding.Error
import DataBinding.Evaluation
import DataBinding.View

/-!
# Replies and the log

A command is answered by a `Reply`. What listeners and sinks are told while it is carried out is written into a log, in
the order in which it happens.
-/

namespace DataBinding

/-- A read of an evaluation, with the names that the host has for what was read. -/
inductive ReadView
  | property (object : Option String) (name : String)
  | stream (name : Option String)

inductive Reply
  | done
  | flag (b : Bool)
  | count (n : Nat)
  | value (v : View)
  | keys (names : List String)
  | names (names : List String)
  /-- The names that a thing has, if there is the thing. -/
  | namesOf (names : Option (List String))
  | subscribed (closed : Bool)
  | config (c : Config)
  /-- Where a name is found: the object, the binding context and the override names of the ancestor, and whether the
  scope has a parent. -/
  | located (object : Option String) (context : Option String) (override : Option (List String)) (hasParent : Bool)
  | evaluated (value : View) (display : String) (reads : Option (List ReadView))
  | notEvaluated (error : ExpressionError) (reads : Option (List ReadView))
  | accepted
  | notAssigned (error : ExpressionError)
  | binding (property : String) (flags : EvalFlags) (kind : ExprKind) (isStreamAware : Bool) (target : Option String)
  | text (s : String)
  | failed (error : BindError)
  /-- The command speaks of something that does not exist. -/
  | unknown

inductive LogEntry
  /-- A recorder was told of a change. -/
  | change (recorder : String) (new previous : View)
  /-- A sink was told of an event. -/
  | next (sink : String) (value : View)
  | error (sink message : String)
  | complete (sink : String)
  /-- A listener or a sink carried out one of its actions. -/
  | action (label : String) (reply : Reply)
  /-- The subscription to a cold stream was released. -/
  | teardown (stream : String)

end DataBinding
