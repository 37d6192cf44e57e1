import DataBinding.Attribute
import DataBinding.Expr.Rebase

/-!
# Instructions

An attribute and an expression compile to an instruction: which expression drives which target, and whether undefined
and null come through. The command `subscribe` rebases the expression and is strict. The one-way commands do so only for
an expression with the behavior `subscribe` among those around it, and else take it as it is.
-/

namespace DataBinding

/-- What a binding is to be made of. -/
structure Instruction where
  expression : Expr
  target : String
  strict : Bool

namespace Instruction

/-- The name of the command, and of the behavior, that makes an expression read through streams. -/
def subscribe : String := "subscribe"

def oneWayCommands : List String := ["bind", "to-view", "one-way"]

/-- Whether `subscribe` is one of the behaviors around the expression. -/
def hasSubscribe : Expr → Bool
  | .behavior e n _ => n == subscribe || hasSubscribe e
  | _ => false

/-- What rebasing puts in the place of an expression with the behavior; `none` for an expression without it. -/
def applySubscribe? (marker : Char) (e : Expr) : Except ExpressionError (Option Expr) :=
  if hasSubscribe e then (e.rebase marker).map some else .ok none

/-- Compiles an attribute's expression. -/
def compile (marker : Char) (a : Attribute) (e : Expr) : Except BindError Instruction :=
  let command := a.command.getD ""
  if command = subscribe then
    match e.rebase marker with
    | .ok e' => .ok ⟨e', a.target, true⟩
    | .error x => .error (.expression x)
  else if oneWayCommands.contains command then
    match applySubscribe? marker e with
    | .ok (some e') => .ok ⟨e', a.target, true⟩
    | .ok none => .ok ⟨e, a.target, false⟩
    | .error x => .error (.expression x)
  else .error (.compile (.unsupportedCommand command))

/-- Whether the instruction's expression is the very node it was compiled from. -/
def sharesExpression (marker : Char) (i : Instruction) (e : Expr) : Bool := !i.strict || e.isStable marker

end Instruction

end DataBinding
