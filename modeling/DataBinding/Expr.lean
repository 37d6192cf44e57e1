import DataBinding.Value

/-!
# Expressions

The trees of the binding language. Three of the node kinds read through streams: `streamScope`, `streamMember` and
`streamTemplate`; an expression is stream-aware if one of them stands anywhere in it. The language has nodes that can
be written down and carried around but neither evaluated nor assigned to, such as calls and patterns.
-/

namespace DataBinding

/-- A constant. -/
inductive Literal
  | undefined
  | null
  | bool (b : Bool)
  | int (n : Int64)
  | float (x : Float)
  | text (s : String)

def Literal.value : Literal → Value
  | .undefined => .undefined
  | .null => .null
  | .bool b => .bool b
  | .int n => .int n
  | .float x => .float x
  | .text s => .text s

inductive UnaryOp
  | not | negate | plus | typeOf
  deriving DecidableEq

inductive BinaryOp
  | and | or | eq | notEq | strictEq | strictNotEq | add | sub | mul | div | mod | lt | gt | le | ge | isIn
  deriving DecidableEq

inductive Expr
  /-- The binding context of the scope `ancestor` levels up. -/
  | this (ancestor : UInt32)
  /-- A name that is looked up in the scopes, or in the host's scopes alone. -/
  | scope (name : String) (ancestor : UInt32) (fromHost : Bool)
  | member (object : Expr) (name : String)
  | keyed (object key : Expr)
  | callScope (name : String) (args : List Expr) (ancestor : UInt32)
  | callMember (object : Expr) (name : String) (args : List Expr)
  | callFunction (func : Expr) (args : List Expr)
  | unary (operation : UnaryOp) (operand : Expr)
  | binary (operation : BinaryOp) (left right : Expr)
  | conditional (condition yes no : Expr)
  | assign (target value : Expr)
  | literal (value : Literal)
  | array (elements : List Expr)
  | object (keys : List String) (values : List Expr)
  /-- Segments of text with a value between each two. -/
  | template (segments : List String) (parts : List Expr)
  | taggedTemplate (segments : List String) (func : Expr) (parts : List Expr)
  | interpolation (segments : List String) (parts : List Expr)
  | html (parts : List Expr)
  | converter (operand : Expr) (name : String) (args : List Expr)
  | behavior (operand : Expr) (name : String) (args : List Expr)
  | forOf (declaration iterable : Expr)
  | identifier (name : String)
  | arrayPattern (elements : List Expr)
  | objectPattern (keys : List String) (values : List Expr)
  /-- As `scope`, read through a stream. -/
  | streamScope (name : String) (ancestor : UInt32) (fromHost : Bool)
  /-- As `member`, read through a stream. -/
  | streamMember (object : Expr) (name : String)
  /-- As `template`, with a part that reads through a stream. -/
  | streamTemplate (segments : List String) (parts : List Expr)

/-- What sort of node an expression is. -/
inductive ExprKind
  | accessThis | accessScope | accessMember | accessKeyed | callScope | callMember | callFunction | unary | binary
  | conditional | assign | primitiveLiteral | arrayLiteral | objectLiteral | template | taggedTemplate | interpolation
  | htmlLiteral | valueConverter | bindingBehavior | forOfStatement | bindingIdentifier | arrayBindingPattern
  | objectBindingPattern | streamAccessScope | streamAccessMember | streamTemplate
  deriving DecidableEq

namespace ExprKind

/-- The kinds in the order in which they are numbered. -/
def all : List ExprKind :=
  [accessThis, accessScope, accessMember, accessKeyed, callScope, callMember, callFunction, unary, binary, conditional,
   assign, primitiveLiteral, arrayLiteral, objectLiteral, template, taggedTemplate, interpolation, htmlLiteral,
   valueConverter, bindingBehavior, forOfStatement, bindingIdentifier, arrayBindingPattern, objectBindingPattern,
   streamAccessScope, streamAccessMember, streamTemplate]

/-- The kind as messages name it. -/
def name : ExprKind → String
  | accessThis => "AccessThis"
  | accessScope => "AccessScope"
  | accessMember => "AccessMember"
  | accessKeyed => "AccessKeyed"
  | callScope => "CallScope"
  | callMember => "CallMember"
  | callFunction => "CallFunction"
  | unary => "Unary"
  | binary => "Binary"
  | conditional => "Conditional"
  | assign => "Assign"
  | primitiveLiteral => "PrimitiveLiteral"
  | arrayLiteral => "ArrayLiteral"
  | objectLiteral => "ObjectLiteral"
  | template => "Template"
  | taggedTemplate => "TaggedTemplate"
  | interpolation => "Interpolation"
  | htmlLiteral => "HtmlLiteral"
  | valueConverter => "ValueConverter"
  | bindingBehavior => "BindingBehavior"
  | forOfStatement => "ForOfStatement"
  | bindingIdentifier => "BindingIdentifier"
  | arrayBindingPattern => "ArrayBindingPattern"
  | objectBindingPattern => "ObjectBindingPattern"
  | streamAccessScope => "StreamAccessScope"
  | streamAccessMember => "StreamAccessMember"
  | streamTemplate => "StreamTemplate"

/-- Whether nodes of the kind read through streams. -/
def isStreamAware : ExprKind → Bool
  | streamAccessScope | streamAccessMember | streamTemplate => true
  | _ => false

end ExprKind

namespace Expr

instance : Inhabited Expr := ⟨.literal .undefined⟩

def kind : Expr → ExprKind
  | this .. => .accessThis
  | scope .. => .accessScope
  | member .. => .accessMember
  | keyed .. => .accessKeyed
  | callScope .. => .callScope
  | callMember .. => .callMember
  | callFunction .. => .callFunction
  | unary .. => .unary
  | binary .. => .binary
  | conditional .. => .conditional
  | assign .. => .assign
  | literal .. => .primitiveLiteral
  | array .. => .arrayLiteral
  | object .. => .objectLiteral
  | template .. => .template
  | taggedTemplate .. => .taggedTemplate
  | interpolation .. => .interpolation
  | html .. => .htmlLiteral
  | converter .. => .valueConverter
  | behavior .. => .bindingBehavior
  | forOf .. => .forOfStatement
  | identifier .. => .bindingIdentifier
  | arrayPattern .. => .arrayBindingPattern
  | objectPattern .. => .objectBindingPattern
  | streamScope .. => .streamAccessScope
  | streamMember .. => .streamAccessMember
  | streamTemplate .. => .streamTemplate

/-- The expressions directly inside, in the order of evaluation. -/
def children : Expr → List Expr
  | this .. | scope .. | streamScope .. | literal .. | identifier .. => []
  | member o _ | streamMember o _ => [o]
  | keyed o k => [o, k]
  | callScope _ args _ => args
  | callMember o _ args => o :: args
  | callFunction f args => f :: args
  | unary _ e => [e]
  | binary _ l r => [l, r]
  | conditional c y n => [c, y, n]
  | assign t v => [t, v]
  | array es | arrayPattern es => es
  | object _ vs | objectPattern _ vs => vs
  | template _ ps | streamTemplate _ ps | interpolation _ ps => ps
  | taggedTemplate _ f ps => f :: ps
  | html ps => ps
  | converter e _ args | behavior e _ args => e :: args
  | forOf d i => [d, i]

/-- The size of several expressions together. -/
noncomputable def totalSize : List Expr → Nat
  | [] => 0
  | e :: es => sizeOf e + totalSize es

theorem totalSize_append (es ds : List Expr) : totalSize (es ++ ds) = totalSize es + totalSize ds := by
  induction es with
  | nil => simp only [List.nil_append, totalSize, Nat.zero_add]
  | cons e es ih => simp only [List.cons_append, totalSize, ih, Nat.add_assoc]

theorem totalSize_lt_sizeOf (es : List Expr) : totalSize es < sizeOf es := by
  induction es with
  | nil => simp [totalSize]
  | cons e es ih => simp only [totalSize, List.cons.sizeOf_spec]; omega

/-- All children together are smaller than the expression. -/
theorem totalSize_children_lt (e : Expr) : totalSize e.children < sizeOf e := by
  cases e <;> simp only [children, totalSize, this.sizeOf_spec,
    scope.sizeOf_spec, member.sizeOf_spec, keyed.sizeOf_spec, callScope.sizeOf_spec, callMember.sizeOf_spec,
    callFunction.sizeOf_spec, unary.sizeOf_spec, binary.sizeOf_spec, conditional.sizeOf_spec, assign.sizeOf_spec,
    literal.sizeOf_spec, array.sizeOf_spec, object.sizeOf_spec, template.sizeOf_spec, taggedTemplate.sizeOf_spec,
    interpolation.sizeOf_spec, html.sizeOf_spec, converter.sizeOf_spec, behavior.sizeOf_spec, forOf.sizeOf_spec,
    identifier.sizeOf_spec, arrayPattern.sizeOf_spec, objectPattern.sizeOf_spec, streamScope.sizeOf_spec,
    streamMember.sizeOf_spec, streamTemplate.sizeOf_spec]
  case callScope _ es _ | callMember _ _ es | callFunction _ es | array es | object _ es | template _ es
      | taggedTemplate _ _ es | interpolation _ es | html es | converter _ _ es | behavior _ _ es | arrayPattern es
      | objectPattern _ es | streamTemplate _ es =>
    have := totalSize_lt_sizeOf es
    omega
  all_goals omega

theorem sizeOf_lt_of_mem_children {c e : Expr} (h : c ∈ e.children) : sizeOf c < sizeOf e := by
  have hs : sizeOf c ≤ totalSize e.children := by
    generalize e.children = es at h
    induction es with
    | nil => simp at h
    | cons d ds ih =>
      simp only [totalSize]
      rcases List.mem_cons.1 h with rfl | h
      · omega
      · have := ih h
        omega
  have := totalSize_children_lt e
  omega

mutual

/-- Whether the expression or one inside it reads through a stream. -/
def isStreamAware : Expr → Bool
  | this .. | scope .. | literal .. | identifier .. => false
  | streamScope .. | streamMember .. | streamTemplate .. => true
  | member o _ => o.isStreamAware
  | keyed o k => o.isStreamAware || k.isStreamAware
  | callScope _ args _ => anyStreamAware args
  | callMember o _ args => o.isStreamAware || anyStreamAware args
  | callFunction f args => f.isStreamAware || anyStreamAware args
  | unary _ e => e.isStreamAware
  | binary _ l r => l.isStreamAware || r.isStreamAware
  | conditional c y n => c.isStreamAware || y.isStreamAware || n.isStreamAware
  | assign t v => t.isStreamAware || v.isStreamAware
  | array es | arrayPattern es => anyStreamAware es
  | object _ vs | objectPattern _ vs => anyStreamAware vs
  | template _ ps | interpolation _ ps => anyStreamAware ps
  | taggedTemplate _ f ps => f.isStreamAware || anyStreamAware ps
  | html ps => anyStreamAware ps
  | converter e _ args | behavior e _ args => e.isStreamAware || anyStreamAware args
  | forOf d i => d.isStreamAware || i.isStreamAware

def anyStreamAware : List Expr → Bool
  | [] => false
  | e :: es => e.isStreamAware || anyStreamAware es

end

theorem anyStreamAware_eq (es : List Expr) : anyStreamAware es = es.any isStreamAware := by
  induction es with
  | nil => simp [anyStreamAware]
  | cons e es ih => simp [anyStreamAware, ih]

/-- An expression is stream-aware iff its own kind is or one of its children is. -/
theorem isStreamAware_eq (e : Expr) :
    e.isStreamAware = (e.kind.isStreamAware || e.children.any isStreamAware) := by
  cases e <;> simp [isStreamAware, kind, ExprKind.isStreamAware, children, anyStreamAware_eq, Bool.or_assoc]

end Expr

end DataBinding
