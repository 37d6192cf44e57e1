import DataBinding.Config
import DataBinding.Evaluation
import DataBinding.Instruction
import DataBinding.Observations

/-!
# Bindings

A binding keeps a property of its target equal to the value of an expression. While it is bound it observes every source
that its last evaluation read. It belongs to a system, whose registry and converters it evaluates with.
-/

namespace DataBinding

/-- The collaborators that bindings share: a configuration, a registry of observers, and converters by name. -/
structure System where
  config : Config
  registry : Registry
  converters : Table String Converter := ∅

namespace System

/-- A new system. -/
def ofConfig (c : Config) : System := { config := c, registry := { threshold := c.pruneThreshold } }

end System

/-- The scopes that a binding is bound to. -/
structure Bound where
  scope : Scope
  host : Option Scope
  deriving DecidableEq

structure Binding where
  system : SystemId
  expression : Expr
  target : ObjectId
  property : String
  flags : EvalFlags
  state : Option Bound := none
  observations : Observations := {}
  /-- The last value that was written to the target. -/
  value : Value := .undefined
  /-- Why the last evaluation after a change failed, if it did. -/
  lastError : Option BindError := none

namespace Binding

def isBound (b : Binding) : Bool := b.state.isSome

/-- The binding that an instruction asks for. -/
def ofInstruction (system : SystemId) (config : Config) (target : ObjectId) (i : Instruction) : Binding :=
  { system, target, expression := i.expression, property := PropertyName.ofTarget i.target,
    flags := { strict := i.strict, leafOnly := config.leafOnly } }

end Binding

end DataBinding
