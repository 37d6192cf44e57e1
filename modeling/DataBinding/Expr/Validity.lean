import DataBinding.Error
import DataBinding.Expr.Decoding
import DataBinding.Json.Reader
import DataBinding.Text.Blank

/-!
# Valid expressions

A tree that was received as data is valid if each of its nodes lies no deeper than `maxDepth` and satisfies the rule of
its kind: names are not blank, a template has one segment more than parts, keys and values come in equal numbers.
`Expr.validate` walks the tree with a stack of the nodes still to come, each with its depth, and reports the first node
in pre-order that breaks a rule.
-/

namespace DataBinding

namespace Expr

/-- How deep a node may lie; the root lies at depth one. -/
def maxDepth : Nat := 60

def checkName (name : String) : Except ValidationError Unit :=
  if (Text.trimBlanks name.toList).isEmpty then .error (.missingField "name") else .ok ()

def checkSegments (segments : List String) (parts : List Expr) : Except ValidationError Unit :=
  if segments.length = parts.length + 1 then .ok ()
  else .error (.templateArity segments.length parts.length)

def checkPairs (keys : List String) (values : List Expr) : Except ValidationError Unit :=
  if keys.length = values.length then .ok ()
  else .error (.arityMismatch "values" keys.length values.length)

/-- The rule of a node's kind. -/
def checkNode : Expr → Except ValidationError Unit
  | scope n .. | streamScope n .. | member _ n | streamMember _ n | callScope n .. | callMember _ n _ | identifier n
  | converter _ n _ | behavior _ n _ => checkName n
  | template ss ps | streamTemplate ss ps | taggedTemplate ss _ ps | interpolation ss ps => checkSegments ss ps
  | object ks vs | objectPattern ks vs => checkPairs ks vs
  | _ => .ok ()

/-- Checks the nodes on the stack and those below them, the top of the stack first. -/
def validateAll : List (Expr × Nat) → Except ValidationError Unit
  | [] => .ok ()
  | (e, depth) :: rest =>
    if maxDepth < depth then .error (.tooDeep maxDepth)
    else match e.checkNode with
      | .error x => .error x
      | .ok () => validateAll (e.children.map (fun c => (c, depth + 1)) ++ rest)
termination_by stack => totalSize (stack.map (·.1))
decreasing_by
  have := e.totalSize_children_lt
  have h : (e.children.map fun c => (c, depth + 1)).map (·.1) = e.children := by
    rw [List.map_map]
    exact List.map_id _
  simp only [List.map_append, List.map_cons, totalSize_append, totalSize, h]
  omega

def validate (e : Expr) : Except ValidationError Unit := validateAll [(e, 1)]

/-- Reads an expression without a check of its rules. -/
def read (text : String) : Except ValidationError Expr :=
  match (Json.parse? text).bind ofJson? with
  | none => .error .malformed
  | some e => .ok e

/-- Reads a valid expression. -/
def parse (text : String) : Except ValidationError Expr :=
  match read text with
  | .error x => .error x
  | .ok e =>
    match e.validate with
    | .error x => .error x
    | .ok () => .ok e

end Expr

end DataBinding
