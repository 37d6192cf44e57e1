import DataBinding.Config
import DataBinding.Converters
import DataBinding.Json

/-!
# Commands of the host

What the host can ask a session to do. The host knows things by the names it gave them. The actions of a recorder or a
sink are commands too: they are carried out while a notification is under way.
-/

namespace DataBinding

/-- A value as the host writes it. -/
inductive HostValue
  | undefined
  | null
  | bool (b : Bool)
  | int (n : Int64)
  | float (x : Float)
  | text (s : String)
  | array (items : List HostValue)
  | object (name : String)
  | stream (name : String)
  /-- The value that a JSON value stands for, with new objects. -/
  | json (j : Json)

inductive HostEvent
  | next (v : HostValue)
  | error (message : String)
  | complete

/-- A source of change as the host names it. -/
inductive HostSource
  | property (object name : String)
  | observer (name : String)
  | collection (name : String)

/-- An expression that the host gives as data: what it was read as, or what is wrong with it. -/
abbrev HostExpr := Except ValidationError Expr

/-- Where an expression is evaluated. -/
structure Place where
  system : String
  scope : String
  host : Option String
  flags : EvalFlags

/-- What an evaluation on its own is to do besides giving the value. -/
structure EvalOptions where
  /-- Report what is read. -/
  tracks : Bool := false
  /-- Rebase the expression first. -/
  rebases : Bool := false

/-- Things that describe themselves in words. -/
inductive Described
  | stream | sink | collection | record | system
  deriving DecidableEq

inductive Command
  /-- Make a thing under a name. -/
  | makeObject (name : String) (properties : List (String × HostValue))
  | makeSubject (name : String) (initial : Option HostValue)
  | makeCold (name : String) (events : List HostEvent)
  | makeScope (name context : String) (parent override : Option String)
  | makeSystem (name : String) (config : Config)
  | makeRecorder (name : String) (actions : List Command) (limit : Nat)
  | makeCollection (name : String)
  | makeRecord (name : String)
  /-- Make a binding from an attribute and its expression. -/
  | makeFromAttribute (name system attr : String) (expression : HostExpr) (target : String)
  /-- Make a binding of an expression as it stands. -/
  | makeBinding (name system : String) (expression : HostExpr) (target property : String) (flags : EvalFlags)
  | addConverter (system name : String) (converter : StockConverter)
  /-- Give a name up. -/
  | drop (what : Thing) (name : String)
  | get (object name : String)
  | has (object name : String)
  | keys (object : String)
  | set (object name : String) (value : HostValue)
  | same (a b : String)
  /-- Register a recorder with a source, and keep the token under a name. -/
  | listen (source : HostSource) (recorder token : String)
  | unlisten (source : HostSource) (token : String)
  /-- Notify the listeners of a collection. -/
  | notify (collection : String) (new previous : HostValue)
  | next (stream : String) (value : HostValue)
  | fail (stream message : String)
  | complete (stream : String)
  /-- Subscribe a sink to a stream. -/
  | subscribe (name stream : String) (actions : List Command) (limit : Nat)
  | unsubscribe (sink : String)
  /-- The observer of a stream, kept under a name if one is given. -/
  | observe (system stream : String) (name : Option String)
  | peek (system stream : String)
  | prune (system : String)
  /-- Destroy the live observers of a system and empty its registry. -/
  | shutdown (system : String)
  | destroy (observer : String)
  | setValue (observer : String)
  | resolve (scope : String) (host : Option String) (name : String) (ancestor : Nat)
  | evaluate (expression : HostExpr) (place : Place) (options : EvalOptions)
  | assign (expression : HostExpr) (place : Place) (value : HostValue)
  | bind (binding scope : String) (host : Option String)
  | unbind (binding : String)
  | updateSource (binding : String) (value : HostValue)
  | nextVersion (record : String)
  | record (record : String) (source : HostSource) (recorder : String)
  | clearStale (record : String)
  | clearRecord (record : String)
  | describe (what : Described) (name : String)

end DataBinding
