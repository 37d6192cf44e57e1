import DataBinding.Identity

/-!
# Scopes

A scope is a chain of levels, the innermost first. Each level has a binding context and an override context that comes
before it. A name belongs to the first context in the chain that has it.
-/

namespace DataBinding

/-- One level of a scope. -/
structure Level where
  context : ObjectId
  override : ObjectId
  deriving DecidableEq

/-- A scope with its own identity: two scopes may have the same levels. -/
structure Scope where
  id : ScopeId
  inner : Level
  outer : List Level
  deriving DecidableEq

namespace Scope

/-- The levels from the innermost to the root. -/
def levels (s : Scope) : List Level := s.inner :: s.outer

/-- The level `depth` steps further out. -/
def ancestor? (s : Scope) (depth : Nat) : Option Level := s.levels[depth]?

end Scope

/-- The context of the level that has the name. -/
def Level.defining? (has : ObjectId → String → Bool) (name : String) (l : Level) : Option ObjectId :=
  if has l.override name then some l.override
  else if has l.context name then some l.context
  else none

/-- The first context in the levels that has the name. -/
def findIn (has : ObjectId → String → Bool) (name : String) : List Level → Option ObjectId
  | [] => none
  | l :: ls =>
    match l.defining? has name with
    | some o => some o
    | none => findIn has name ls

/-- The object that a name belongs to. At depth zero the scope is searched, then the host's scope, and a name that nobody
has belongs to the innermost binding context. At any other depth that one level decides; there is no object if the scope
is not so deep. -/
def resolve (has : ObjectId → String → Bool) (s : Scope) (name : String) (depth : Nat) (host : Option Scope) :
    Option ObjectId :=
  match depth with
  | 0 =>
    match findIn has name s.levels with
    | some o => some o
    | none =>
      match host.bind fun h => findIn has name h.levels with
      | some o => some o
      | none => some s.inner.context
  | d + 1 => (s.ancestor? (d + 1)).map fun l => (l.defining? has name).getD l.context

end DataBinding
