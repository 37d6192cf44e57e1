import DataBinding.Error
import DataBinding.Operator
import DataBinding.Registry
import DataBinding.Scope

/-!
# Evaluation

Evaluating an expression gives a value or an error, and a list of what was read on the way: properties of objects, and
streams read through their observers. What is read is the same whoever asks; `Watch` says how much of it is reported.
Only the nodes that read through streams, and only when streams are watched, open observers.

Two ways of treating what is missing are told apart by `strict`: undefined and null come through as they are, or names
without a value and members of false values count as the empty text.
-/

namespace DataBinding

/-- A named change of values, applied to what an expression gives, and back to what is assigned through it. -/
structure Converter where
  toView : Value → List Value → Value
  fromView : Value → List Value → Value := fun v _ => v

instance : Inhabited Converter := ⟨{ toView := fun v _ => v }⟩

structure EvalFlags where
  /-- Let undefined and null through. -/
  strict : Bool := false
  /-- Report only the last property of a chain of accesses. -/
  leafOnly : Bool := false
  deriving DecidableEq

/-- What an evaluation depends on besides the store. -/
structure EvalContext where
  flags : EvalFlags
  scope : Scope
  host : Option Scope
  converters : Table String Converter
  alive : StreamId → Bool

/-- Which reads are reported. -/
inductive Watch
  | nothing | streams | everything
  deriving DecidableEq

/-- Something that an evaluation read. -/
inductive Read
  | property (o : ObjectId) (name : String)
  | stream (s : StreamId) (o : ObserverId)
  deriving DecidableEq

/-- What an evaluation changes: it makes objects, opens observers and reports reads. -/
structure EvalState where
  store : Store
  registry : Registry
  reads : List Read := []

/-- An evaluation keeps its state when it fails. -/
abbrev Eval := ExceptT ExpressionError (StateM EvalState)

namespace Eval

def store : Eval Store := return (← get).store

/-- Reports that a property was read. -/
def readProperty (w : Watch) (o : ObjectId) (name : String) : Eval Unit :=
  match w with
  | .everything => modify fun s => { s with reads := s.reads ++ [.property o name] }
  | _ => pure ()

/-- Reports that a stream was read, and gives the latest value of its observer. -/
def readStream (ctx : EvalContext) (i : StreamId) : Eval Value :=
  modifyGet fun s =>
    let (store, registry, o) := s.registry.observerFor ctx.alive s.store i
    (match store.observers.get? o with
      | some x => x.value
      | none => .undefined,
     { store, registry, reads := s.reads ++ [.stream i o] })

/-- The value, or the latest value of the stream if it is one and streams are watched. -/
def readThrough (ctx : EvalContext) (w : Watch) (v : Value) : Eval Value :=
  match w, v with
  | .nothing, v => return v.orEmpty
  | _, .stream i => return (← readStream ctx i).orEmpty
  | _, v => return v.orEmpty

/-- What is reported of the object part of an access. -/
def watchObject (ctx : EvalContext) : Watch → Watch
  | .everything => if ctx.flags.leafOnly then .streams else .everything
  | w => w

/-- The object that a name belongs to; from the host's scopes alone if the node asks for it. -/
def lookUp (ctx : EvalContext) (name : String) (ancestor : UInt32) (fromHost : Bool) : Eval (Option ObjectId) := do
  let s ← store
  match fromHost, ctx.host with
  | true, some host => return resolve s.hasProperty host name ancestor.toNat none
  | true, none => return none
  | false, host => return resolve s.hasProperty ctx.scope name ancestor.toNat host

def converter (ctx : EvalContext) (name : String) : Eval Converter :=
  match ctx.converters.get? name with
  | some c => return c
  | none => throw (.unknownConverter name)

/-- A new object with the given entries. -/
def newObject (entries : List (String × Value)) : Eval Value :=
  modifyGet fun s =>
    let (store, o) := s.store.newObject (Table.ofList entries)
    (.object o, { s with store })

end Eval

namespace Expr

open Eval

mutual

/-- The value of an expression. -/
def evaluate (ctx : EvalContext) (w : Watch) : Expr → Eval Value
  | this a =>
    return match ctx.scope.ancestor? a.toNat with
      | some l => .object l.context
      | none => .undefined
  | scope n a h => do
    match ← lookUp ctx n a h with
    | none => return if ctx.flags.strict then .undefined else .text ""
    | some o =>
      readProperty w o n
      let v := (← Eval.store).property o n
      return if ctx.flags.strict then v else v.orEmpty
  | streamScope n a h => do
    match ← lookUp ctx n a h with
    | none => return .text ""
    | some o =>
      readProperty w o n
      readThrough ctx w ((← Eval.store).property o n)
  | member e n => do
    let v ← e.evaluate ctx (watchObject ctx w)
    if ctx.flags.strict && v.isNullish then return v
    if let .object o := v then readProperty w o n
    let s ← Eval.store
    return if ctx.flags.strict || v.isTruthy then s.member v n else .text ""
  | streamMember e n => do
    let v ← e.evaluate ctx (watchObject ctx w)
    if ctx.flags.strict && v.isNullish then return v
    let s ← Eval.store
    match v with
    | .object o =>
      readProperty w o n
      readThrough ctx w (s.property o n)
    | v => return if ctx.flags.strict || v.isTruthy then s.member v n else .text ""
  | keyed e k => do
    let v ← e.evaluate ctx (watchObject ctx w)
    let key ← k.evaluate ctx w
    match v with
    | .object o =>
      readProperty w o key.display
      return (← Eval.store).property o key.display
    | .array items => return ((Operator.index? key).bind (items[·]?)).getD .undefined
    | _ => return .undefined
  | unary op e => do return Operator.unary op (← e.evaluate ctx w)
  | binary op l r => do
    let a ← l.evaluate ctx w
    match op with
    | .and => if a.isTruthy then r.evaluate ctx w else return a
    | .or => if a.isTruthy then return a else r.evaluate ctx w
    | op =>
      let b ← r.evaluate ctx w
      return Operator.binary (← Eval.store).hasProperty op a b
  | conditional c y n => do
    if (← c.evaluate ctx w).isTruthy then y.evaluate ctx w else n.evaluate ctx w
  | literal l => return l.value
  | array es => return .array (← evaluateAll ctx w es)
  | object ks vs => do newObject (ks.zip (← evaluateAll ctx w vs))
  | template ss ps | streamTemplate ss ps | interpolation ss ps =>
    return .text (ss.headD "" ++ (← renderParts ctx w ss.tail ps))
  | converter e n args => do
    let c ← Eval.converter ctx n
    let v ← e.evaluate ctx w
    return c.toView v (← evaluateAll ctx w args)
  | behavior e _ args => do
    let v ← e.evaluate ctx w
    let _ ← evaluateAll ctx w args
    return v
  | e => throw (.unsupported e.kind .evaluation)

/-- The values of expressions in order; the first error ends it. -/
def evaluateAll (ctx : EvalContext) (w : Watch) : List Expr → Eval (List Value)
  | [] => return []
  | e :: es => do
    let v ← e.evaluate ctx w
    return v :: (← evaluateAll ctx w es)

/-- The parts of a template, each with the segment after it. -/
def renderParts (ctx : EvalContext) (w : Watch) (segments : List String) : List Expr → Eval String
  | [] => return ""
  | e :: es => do
    let v ← e.evaluate ctx w
    return v.display ++ segments.headD "" ++ (← renderParts ctx w segments.tail es)

end

/-- Where a value that is assigned through an expression goes, and what is written there. -/
structure Destination where
  object : ObjectId
  name : String
  value : Value

/-- The place that the expression denotes. Nothing is reported while it is looked up. -/
def destination (ctx : EvalContext) : Expr → Value → Eval Destination
  | scope n a h, v => do
    match ← lookUp ctx n a h with
    | some o => return ⟨o, n, v⟩
    | none => throw (.notAssignable .accessScope)
  | member e n, v => do
    match ← e.evaluate ctx .nothing with
    | .object o => return ⟨o, n, v⟩
    | _ => throw (.notAssignable .accessMember)
  | keyed e k, v => do
    let owner ← e.evaluate ctx .nothing
    let key ← k.evaluate ctx .nothing
    match owner with
    | .object o => return ⟨o, key.display, v⟩
    | _ => throw (.notAssignable .accessKeyed)
  | converter e n args, v => do
    let c ← Eval.converter ctx n
    let vs ← evaluateAll ctx .nothing args
    e.destination ctx (c.fromView v vs)
  | behavior e _ _, v => e.destination ctx v
  | e, _ => throw (.notAssignable e.kind)

end Expr

end DataBinding
