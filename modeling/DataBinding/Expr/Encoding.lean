import DataBinding.Expr
import DataBinding.Json.Printer

/-!
# Expressions as JSON

A node is written as an object: its kind under `kind`, then its fields in their order of declaration, none of them left
out. A constant is an object with its type and, unless the type says all, its value.
-/

namespace DataBinding

namespace ExprKind

/-- The kind as it is written in JSON. -/
def tag : ExprKind → String
  | accessThis => "access_this"
  | accessScope => "access_scope"
  | accessMember => "access_member"
  | accessKeyed => "access_keyed"
  | callScope => "call_scope"
  | callMember => "call_member"
  | callFunction => "call_function"
  | unary => "unary"
  | binary => "binary"
  | conditional => "conditional"
  | assign => "assign"
  | primitiveLiteral => "primitive_literal"
  | arrayLiteral => "array_literal"
  | objectLiteral => "object_literal"
  | template => "template"
  | taggedTemplate => "tagged_template"
  | interpolation => "interpolation"
  | htmlLiteral => "html_literal"
  | valueConverter => "value_converter"
  | bindingBehavior => "binding_behavior"
  | forOfStatement => "for_of_statement"
  | bindingIdentifier => "binding_identifier"
  | arrayBindingPattern => "array_binding_pattern"
  | objectBindingPattern => "object_binding_pattern"
  | streamAccessScope => "stream_access_scope"
  | streamAccessMember => "stream_access_member"
  | streamTemplate => "stream_template"

/-- The fields of a node, in their order of declaration. -/
def fields : ExprKind → List String
  | accessThis => ["ancestor"]
  | accessScope | streamAccessScope => ["name", "ancestor", "access_host_scope"]
  | accessMember | streamAccessMember => ["object", "name"]
  | accessKeyed => ["object", "key"]
  | callScope => ["name", "args", "ancestor"]
  | callMember => ["object", "name", "args"]
  | callFunction => ["func", "args"]
  | unary => ["operation", "expression"]
  | binary => ["operation", "left", "right"]
  | conditional => ["condition", "yes", "no"]
  | assign => ["target", "value"]
  | primitiveLiteral => ["value"]
  | arrayLiteral | arrayBindingPattern => ["elements"]
  | objectLiteral | objectBindingPattern => ["keys", "values"]
  | template | streamTemplate => ["cooked", "expressions"]
  | taggedTemplate => ["cooked", "func", "expressions"]
  | interpolation => ["parts", "expressions"]
  | htmlLiteral => ["parts"]
  | valueConverter | bindingBehavior => ["expression", "name", "args"]
  | forOfStatement => ["declaration", "iterable"]
  | bindingIdentifier => ["name"]

end ExprKind

def UnaryOp.tag : UnaryOp → String
  | not => "not"
  | negate => "negate"
  | plus => "plus"
  | typeOf => "typeof"

def UnaryOp.all : List UnaryOp := [not, negate, plus, typeOf]

def BinaryOp.tag : BinaryOp → String
  | and => "and"
  | or => "or"
  | eq => "eq"
  | notEq => "not_eq"
  | strictEq => "strict_eq"
  | strictNotEq => "strict_not_eq"
  | add => "add"
  | sub => "sub"
  | mul => "mul"
  | div => "div"
  | mod => "mod"
  | lt => "lt"
  | gt => "gt"
  | le => "le"
  | ge => "ge"
  | isIn => "in"

def BinaryOp.all : List BinaryOp :=
  [and, or, eq, notEq, strictEq, strictNotEq, add, sub, mul, div, mod, lt, gt, le, ge, isIn]

def Literal.toJson : Literal → Json
  | undefined => .object [("type", .string "undefined")]
  | null => .object [("type", .string "null")]
  | bool b => .object [("type", .string "bool"), ("value", .bool b)]
  | int n => .object [("type", .string "int"), ("value", .int n.toInt)]
  | float x => .object [("type", .string "float"), ("value", .number (.float x))]
  | text s => .object [("type", .string "string"), ("value", .string s)]

namespace Expr

/-- A node with the given field values. -/
def node (k : ExprKind) (values : List Json) : Json :=
  .object (("kind", .string k.tag) :: k.fields.zip values)

mutual

def toJson : Expr → Json
  | this a => node .accessThis [.nat a.toNat]
  | scope n a h => node .accessScope [.string n, .nat a.toNat, .bool h]
  | member o n => node .accessMember [o.toJson, .string n]
  | keyed o k => node .accessKeyed [o.toJson, k.toJson]
  | callScope n args a => node .callScope [.string n, .array (allToJson args), .nat a.toNat]
  | callMember o n args => node .callMember [o.toJson, .string n, .array (allToJson args)]
  | callFunction f args => node .callFunction [f.toJson, .array (allToJson args)]
  | unary op e => node .unary [.string op.tag, e.toJson]
  | binary op l r => node .binary [.string op.tag, l.toJson, r.toJson]
  | conditional c y n => node .conditional [c.toJson, y.toJson, n.toJson]
  | assign t v => node .assign [t.toJson, v.toJson]
  | literal l => node .primitiveLiteral [l.toJson]
  | array es => node .arrayLiteral [.array (allToJson es)]
  | object ks vs => node .objectLiteral [.strings ks, .array (allToJson vs)]
  | template ss ps => node .template [.strings ss, .array (allToJson ps)]
  | taggedTemplate ss f ps => node .taggedTemplate [.strings ss, f.toJson, .array (allToJson ps)]
  | interpolation ss ps => node .interpolation [.strings ss, .array (allToJson ps)]
  | html ps => node .htmlLiteral [.array (allToJson ps)]
  | converter e n args => node .valueConverter [e.toJson, .string n, .array (allToJson args)]
  | behavior e n args => node .bindingBehavior [e.toJson, .string n, .array (allToJson args)]
  | forOf d i => node .forOfStatement [d.toJson, i.toJson]
  | identifier n => node .bindingIdentifier [.string n]
  | arrayPattern es => node .arrayBindingPattern [.array (allToJson es)]
  | objectPattern ks vs => node .objectBindingPattern [.strings ks, .array (allToJson vs)]
  | streamScope n a h => node .streamAccessScope [.string n, .nat a.toNat, .bool h]
  | streamMember o n => node .streamAccessMember [o.toJson, .string n]
  | streamTemplate ss ps => node .streamTemplate [.strings ss, .array (allToJson ps)]

def allToJson : List Expr → List Json
  | [] => []
  | e :: es => e.toJson :: allToJson es

end

/-- The text of an expression, over several lines. -/
def toText (e : Expr) : String := e.toJson.pretty

end Expr

end DataBinding
