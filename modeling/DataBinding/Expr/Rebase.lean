import DataBinding.Error

/-!
# Rebasing expressions onto streams

A name that ends in the marker denotes a property that holds a stream. Rebasing makes each access to such a property read
through the stream, and each template with such an access render again when the stream moves. What has no such access
stays the node it was: `rebase?` answers `none` for it, so the result shares everything that did not change.
-/

namespace DataBinding

/-- Whether the name denotes a stream-typed property. -/
def isMarked (marker : Char) (name : String) : Bool := name.toList.getLast? == some marker

namespace Expr

mutual

/-- The expression that takes the place of `e`, or `none` if `e` stays as it is. Node kinds that cannot be rebased fail
the whole. -/
def rebase? (marker : Char) : Expr → Except ExpressionError (Option Expr)
  | this _ | streamScope .. | streamMember .. | streamTemplate .. => .ok none
  | scope n a h => .ok (if isMarked marker n then some (.streamScope n a h) else none)
  | member o n => do
    let o' ← o.rebase? marker
    return if isMarked marker n then some (.streamMember (o'.getD o) n) else o'.map fun o' => .member o' n
  | behavior e n args => do
    let e' ← e.rebase? marker
    let args' ← rebaseAll? marker args
    return if e'.isNone && args'.isNone then none else some (.behavior (e'.getD e) n (args'.getD args))
  | template ss ps => do
    let ps' ← rebaseAll? marker ps
    return ps'.map fun ps' => .streamTemplate ss ps'
  | e => .error (.unsupported e.kind .rebase)

/-- The list that takes the place of `es`, or `none` if each of them stays as it is. -/
def rebaseAll? (marker : Char) : List Expr → Except ExpressionError (Option (List Expr))
  | [] => .ok none
  | e :: es => do
    let e' ← e.rebase? marker
    let es' ← rebaseAll? marker es
    return if e'.isNone && es'.isNone then none else some (e'.getD e :: es'.getD es)

end

/-- The expression with its marked accesses reading through streams. -/
def rebase (marker : Char) (e : Expr) : Except ExpressionError Expr :=
  (e.rebase? marker).map fun e' => e'.getD e

/-- Whether rebasing leaves the expression the node it is. -/
def isStable (marker : Char) (e : Expr) : Bool :=
  match e.rebase? marker with
  | .ok none => true
  | _ => false

mutual

/-- The number of nodes. -/
def size : Expr → Nat
  | this .. | scope .. | literal .. | identifier .. | streamScope .. => 1
  | member o _ | streamMember o _ => o.size + 1
  | keyed o k => o.size + k.size + 1
  | callScope _ args _ => sizeAll args + 1
  | callMember o _ args => o.size + sizeAll args + 1
  | callFunction f args => f.size + sizeAll args + 1
  | unary _ e => e.size + 1
  | binary _ l r => l.size + r.size + 1
  | conditional c y n => c.size + y.size + n.size + 1
  | assign t v => t.size + v.size + 1
  | array es | arrayPattern es => sizeAll es + 1
  | object _ vs | objectPattern _ vs => sizeAll vs + 1
  | template _ ps | interpolation _ ps | streamTemplate _ ps => sizeAll ps + 1
  | taggedTemplate _ f ps => f.size + sizeAll ps + 1
  | html ps => sizeAll ps + 1
  | converter e _ args | behavior e _ args => e.size + sizeAll args + 1
  | forOf d i => d.size + i.size + 1

def sizeAll : List Expr → Nat
  | [] => 0
  | e :: es => e.size + sizeAll es

end

/-- Whether the first of the nodes that were told of is shared. -/
def isShared (nodes : List Bool) : Bool := nodes.headD true

mutual

/-- For each node in pre-order, whether a rebase that succeeds shares it with its result. A node that is rebased is
shared iff what is rebased below it is, and nothing about the node itself changes. -/
def sharing (marker : Char) : Expr → List Bool
  | scope n a h => [isStable marker (.scope n a h)]
  | member o n =>
    let below := o.sharing marker
    (isShared below && !isMarked marker n) :: below
  | behavior e _ args =>
    let below := e.sharing marker :: sharingAll marker args
    below.all isShared :: below.flatten
  | template _ ps =>
    let below := sharingAll marker ps
    below.all isShared :: below.flatten
  | e => List.replicate e.size true

def sharingAll (marker : Char) : List Expr → List (List Bool)
  | [] => []
  | e :: es => e.sharing marker :: sharingAll marker es

end

end Expr

end DataBinding
