import DataBinding.Expr.Encoding
import DataBinding.Json.Record

/-!
# Expressions from JSON

A node may be written more freely than `Expr.toJson` writes it: its members may stand in any order, members with other
names are passed over, `ancestor` and `access_host_scope` may be left out, and the whole node may be an array of its kind
and its fields. `FieldReading.ofJson` reads a value in one pass as everything it can stand for, because what it stands for
depends on the node around it.
-/

namespace DataBinding

/-- A name, or an object that has it as its only member and nothing to say about it. -/
def Json.choice? : Json → Option String
  | .string s => some s
  | .object [(s, .null)] => some s
  | .object [(s, .object [])] => some s
  | _ => none

/-- A list of texts. -/
def Json.texts? : Json → Option (List String)
  | .array items => items.mapM Json.text?
  | _ => none

def UnaryOp.ofJson? (j : Json) : Option UnaryOp := j.choice?.bind fun t => UnaryOp.all.find? (·.tag == t)

def BinaryOp.ofJson? (j : Json) : Option BinaryOp := j.choice?.bind fun t => BinaryOp.all.find? (·.tag == t)

namespace Literal

def int? : Json → Option Literal
  | .number (.int n) => if Int64.minValue.toInt ≤ n ∧ n ≤ Int64.maxValue.toInt then some (.int (Int64.ofInt n)) else none
  | _ => none

/-- A float is any number. -/
def float? : Json → Option Literal
  | .number (.int n) => some (.float (Float.ofInt n))
  | .number (.float x) => some (.float x)
  | _ => none

def nothing? (l : Literal) : Option Json → Option Literal
  | none => some l
  | some .null => some l
  | _ => none

/-- The constant of the given type with the given value. -/
def ofFields? (type : String) (value : Option Json) : Option Literal :=
  match type with
  | "undefined" => nothing? .undefined value
  | "null" => nothing? .null value
  | "bool" => (value.bind Json.bool?).map .bool
  | "int" => value.bind int?
  | "float" => value.bind float?
  | "string" => (value.bind Json.text?).map .text
  | _ => none

def ofJson? : Json → Option Literal
  | .object members =>
    match Json.ofMembers? ["type", "value"] members with
    | some [some type, value] => type.choice?.bind fun t => ofFields? t value
    | _ => none
  | .array [type, value] => type.choice?.bind fun t => ofFields? t (some value)
  | _ => none

end Literal

namespace ExprKind

def ofTag? (t : String) : Option ExprKind := all.find? (·.tag == t)

/-- The kind of a node that stands inside another: its tag, or its number. -/
def ofInnerJson? : Json → Option ExprKind
  | .string t => ofTag? t
  | .number (.int n) => if 0 ≤ n then all[n.toNat]? else none
  | _ => none

/-- The kind of a node that stands alone. -/
def ofOuterJson? : Json → Option ExprKind
  | .string t => ofTag? t
  | _ => none

end ExprKind

/-- All that a JSON value can stand for inside a node: itself, an expression, a list of expressions. -/
structure FieldReading where
  json : Json
  expr? : Option Expr
  exprs? : Option (List Expr)

namespace FieldReading

def text (r : Option FieldReading) : Option String := Json.required (fun r => r.json.text?) r

def texts (r : Option FieldReading) : Option (List String) := Json.required (fun r => r.json.texts?) r

def expr (r : Option FieldReading) : Option Expr := Json.required (·.expr?) r

def exprs (r : Option FieldReading) : Option (List Expr) := Json.required (·.exprs?) r

def ancestor (r : Option FieldReading) : Option UInt32 :=
  Json.orDefault 0 (fun r => (r.json.natBelow? UInt32.size).map UInt32.ofNat) r

def fromHost (r : Option FieldReading) : Option Bool := Json.orDefault false (fun r => r.json.bool?) r

/-- The node of the given kind with the given fields. -/
def node? : ExprKind → List (Option FieldReading) → Option Expr
  | .accessThis, [a] => do return .this (← ancestor a)
  | .accessScope, [n, a, h] => do return .scope (← text n) (← ancestor a) (← fromHost h)
  | .accessMember, [o, n] => do return .member (← expr o) (← text n)
  | .accessKeyed, [o, k] => do return .keyed (← expr o) (← expr k)
  | .callScope, [n, args, a] => do return .callScope (← text n) (← exprs args) (← ancestor a)
  | .callMember, [o, n, args] => do return .callMember (← expr o) (← text n) (← exprs args)
  | .callFunction, [f, args] => do return .callFunction (← expr f) (← exprs args)
  | .unary, [op, e] => do return .unary (← Json.required (fun r => UnaryOp.ofJson? r.json) op) (← expr e)
  | .binary, [op, l, r] => do
    return .binary (← Json.required (fun r => BinaryOp.ofJson? r.json) op) (← expr l) (← expr r)
  | .conditional, [c, y, n] => do return .conditional (← expr c) (← expr y) (← expr n)
  | .assign, [t, v] => do return .assign (← expr t) (← expr v)
  | .primitiveLiteral, [v] => do return .literal (← Json.required (fun r => Literal.ofJson? r.json) v)
  | .arrayLiteral, [es] => do return .array (← exprs es)
  | .objectLiteral, [ks, vs] => do return .object (← texts ks) (← exprs vs)
  | .template, [ss, ps] => do return .template (← texts ss) (← exprs ps)
  | .taggedTemplate, [ss, f, ps] => do return .taggedTemplate (← texts ss) (← expr f) (← exprs ps)
  | .interpolation, [ss, ps] => do return .interpolation (← texts ss) (← exprs ps)
  | .htmlLiteral, [ps] => do return .html (← exprs ps)
  | .valueConverter, [e, n, args] => do return .converter (← expr e) (← text n) (← exprs args)
  | .bindingBehavior, [e, n, args] => do return .behavior (← expr e) (← text n) (← exprs args)
  | .forOfStatement, [d, i] => do return .forOf (← expr d) (← expr i)
  | .bindingIdentifier, [n] => do return .identifier (← text n)
  | .arrayBindingPattern, [es] => do return .arrayPattern (← exprs es)
  | .objectBindingPattern, [ks, vs] => do return .objectPattern (← texts ks) (← exprs vs)
  | .streamAccessScope, [n, a, h] => do return .streamScope (← text n) (← ancestor a) (← fromHost h)
  | .streamAccessMember, [o, n] => do return .streamMember (← expr o) (← text n)
  | .streamTemplate, [ss, ps] => do return .streamTemplate (← texts ss) (← exprs ps)
  | _, _ => none

/-- A node written as an object; `kind?` reads the kind. -/
def ofMembers? (kind? : Json → Option ExprKind) (members : List (String × FieldReading)) : Option Expr :=
  match members.filter fun m => m.1 == "kind" with
  | [(_, k)] => do
    let kind ← kind? k.json
    node? kind (← Json.ofMembers? kind.fields (members.filter fun m => m.1 != "kind"))
  | _ => none

/-- A node written as an array; `kind?` reads the kind. -/
def ofItems? (kind? : Json → Option ExprKind) : List FieldReading → Option Expr
  | [] => none
  | k :: items => do
    let kind ← kind? k.json
    node? kind (← Json.ofItems? kind.fields items)

mutual

/-- All that a value can stand for inside a node. -/
def ofJson : Json → FieldReading
  | .array items =>
    let readings := ofArray items
    ⟨.array items, ofItems? ExprKind.ofInnerJson? readings, readings.mapM (·.expr?)⟩
  | .object members => ⟨.object members, ofMembers? ExprKind.ofInnerJson? (ofObject members), none⟩
  | j => ⟨j, none, none⟩

def ofArray : List Json → List FieldReading
  | [] => []
  | j :: js => ofJson j :: ofArray js

def ofObject : List (String × Json) → List (String × FieldReading)
  | [] => []
  | (k, j) :: ms => (k, ofJson j) :: ofObject ms

end

end FieldReading

/-- The expression that a JSON value spells. -/
def Expr.ofJson? : Json → Option Expr
  | .array items => FieldReading.ofItems? ExprKind.ofOuterJson? (FieldReading.ofArray items)
  | .object members => FieldReading.ofMembers? ExprKind.ofOuterJson? (FieldReading.ofObject members)
  | _ => none

end DataBinding
