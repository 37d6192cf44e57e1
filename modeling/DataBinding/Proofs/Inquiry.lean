import DataBinding.Proofs.RebaseMeaning

/-!
# Evaluations as inquiries

What an evaluation does is decided by the answers to a few questions: which object a name belongs to, what a property
holds, whether an object has a key, what a stream delivered last. An `Inquiry` is a computation with these questions
left open, each of them marked with the node of the expression that asks it. `Expr.inquiry` is the inquiry of an
expression; who listens, and to how much of it, plays no part in it.

Answering the questions from a store and a registry gives back the evaluation (`evaluate_eq_run`), with its result,
with what it leaves behind, and with the reads that it reports: those of the questions asked that the watch covers.
So whatever is to be shown of the reads of an evaluation can be shown of the questions. Each one is asked by a node that
is there and that has reason to ask it (`every_inquiry`).
-/

namespace DataBinding

/-- What an evaluation may have to know before it can go on, or have done. -/
inductive Question
  /-- Which object does the name belong to? -/
  | place (name : String) (ancestor : UInt32) (fromHost : Bool)
  | property (o : ObjectId) (name : String)
  /-- Does the object have the name? -/
  | presence (o : ObjectId) (name : String)
  /-- The latest value of a stream, and the observer that has it. -/
  | stream (i : StreamId)
  /-- A new object with the entries. -/
  | object (entries : List (String × Value))
  | converter (name : String)

/-- What an answer to the question is. A stream that nobody watches is answered with itself. -/
@[reducible] def Question.Answer : Question → Type
  | place .. => Option ObjectId
  | property .. => Value
  | presence .. => Bool
  | stream _ => Option ObserverId × Value
  | object _ => ObjectId
  | converter _ => Option Converter

/-- A computation that asks questions. The node that asks is given by the way to it: from the root on, which child. -/
inductive Inquiry (α : Type)
  | done (a : α)
  | fail (x : ExpressionError)
  | ask (node : List Nat) (q : Question) (next : q.Answer → Inquiry α)

/-- A question, the node that asked it and the answer that it was given. -/
structure Exchange where
  node : List Nat
  question : Question
  answer : question.Answer

/-- What happens when the questions of an inquiry are answered, one after another. -/
structure Course (α : Type) where
  result : Except ExpressionError α
  store : Store
  registry : Registry
  asked : List Exchange

/-- The answer that a store and a registry give, and what they are afterwards. -/
def Question.answer (ctx : EvalContext) (watched : Bool) (s : Store) (r : Registry) :
    (q : Question) → q.Answer × Store × Registry
  | place n a h => (Eval.located ctx s n a h, s, r)
  | property o n => (s.property o n, s, r)
  | presence o n => (s.hasProperty o n, s, r)
  | stream i =>
    if watched then
      let (s', r', o) := r.observerFor ctx.alive s i
      ((some o, Eval.cached s' o), s', r')
    else ((none, .stream i), s, r)
  | object entries =>
    let (s', o) := s.newObject (Table.ofList entries)
    (o, s', r)
  | converter n => (ctx.converters.get? n, s, r)

/-- The read that the exchange is, if it is one. -/
def Exchange.read? : Exchange → Option Read
  | ⟨_, .property o n, _⟩ => some (.property o n)
  | ⟨_, .stream i, (o?, _)⟩ => o?.map (.stream i)
  | _ => none

/-- The exchange, seen from a node that has the one that asked in its `k`-th child. -/
def Exchange.under (k : Nat) (x : Exchange) : Exchange := { x with node := k :: x.node }

@[simp] theorem Exchange.read?_under (k : Nat) (x : Exchange) : (x.under k).read? = x.read? := by
  obtain ⟨p, q, a⟩ := x
  cases q <;> rfl

namespace Inquiry

variable {α β : Type}

protected def bind : Inquiry α → (α → Inquiry β) → Inquiry β
  | done a, f => f a
  | fail x, _ => fail x
  | ask p q next, f => ask p q fun a => (next a).bind f

instance : Monad Inquiry where
  pure := done
  bind := Inquiry.bind

/-- The inquiry of the `k`-th child, as part of that of its parent. -/
def under (k : Nat) : Inquiry α → Inquiry α
  | done a => done a
  | fail x => fail x
  | ask p q next => ask (k :: p) q fun a => (next a).under k

/-- Answers the questions. -/
def run (ctx : EvalContext) (watched : Bool) : Inquiry α → Store → Registry → Course α
  | done a, s, r => ⟨.ok a, s, r, []⟩
  | fail x, s, r => ⟨.error x, s, r, []⟩
  | ask p q next, s, r =>
    let (a, s', r') := q.answer ctx watched s r
    let c := (next a).run ctx watched s' r'
    { c with asked := ⟨p, q, a⟩ :: c.asked }

/-- Whatever is answered, all questions that are asked are of that sort. -/
def Every (P : List Nat → Question → Prop) : Inquiry α → Prop
  | done _ => True
  | fail _ => True
  | ask p q next => P p q ∧ ∀ a, (next a).Every P

/-! ### The questions of a node -/

def place (n : String) (a : UInt32) (h : Bool) : Inquiry (Option ObjectId) := ask [] (.place n a h) done

def property (o : ObjectId) (n : String) : Inquiry Value := ask [] (.property o n) done

/-- What a node that reads through streams makes of a value. -/
def through : Value → Inquiry Value
  | .stream i => ask [] (.stream i) fun a => done a.2.orEmpty
  | v => done v.orEmpty

/-- What an operation gives: only `in` has to ask. -/
def operate (op : BinaryOp) (a b : Value) : Inquiry Value :=
  match op, b with
  | .isIn, .object o => ask [] (.presence o a.display) fun p => done (.bool p)
  | op, b => done (Operator.binary (fun _ _ => false) op a b)

def object (entries : List (String × Value)) : Inquiry Value := ask [] (.object entries) fun o => done (.object o)

def converter (n : String) : Inquiry Converter :=
  ask [] (.converter n) fun
    | some c => done c
    | none => fail (.unknownConverter n)

end Inquiry

namespace Expr

mutual

/-- What evaluating the expression asks. -/
def inquiry (strict : Bool) (x : Scope) : Expr → Inquiry Value
  | this a =>
    return match x.ancestor? a.toNat with
      | some l => .object l.context
      | none => .undefined
  | scope n a h => do
    match ← Inquiry.place n a h with
    | none => return if strict then .undefined else .text ""
    | some o =>
      let v ← Inquiry.property o n
      return if strict then v else v.orEmpty
  | streamScope n a h => do
    match ← Inquiry.place n a h with
    | none => return .text ""
    | some o =>
      let v ← Inquiry.property o n
      Inquiry.through v
  | member e n => do
    match ← (e.inquiry strict x).under 0 with
    | .object o => Inquiry.property o n
    | v => return memberOfOther strict v n
  | streamMember e n => do
    match ← (e.inquiry strict x).under 0 with
    | .object o =>
      let v ← Inquiry.property o n
      Inquiry.through v
    | v => return memberOfOther strict v n
  | keyed e k => do
    let v ← (e.inquiry strict x).under 0
    let key ← (k.inquiry strict x).under 1
    match v with
    | .object o => Inquiry.property o key.display
    | v => return itemOfOther v key
  | unary op e => do return Operator.unary op (← (e.inquiry strict x).under 0)
  | binary op l r => do
    let a ← (l.inquiry strict x).under 0
    if (op = .and ∧ !a.isTruthy) ∨ (op = .or ∧ a.isTruthy) then return a
    let b ← (r.inquiry strict x).under 1
    if op = .and ∨ op = .or then return b else Inquiry.operate op a b
  | conditional c y n => do
    if (← (c.inquiry strict x).under 0).isTruthy then (y.inquiry strict x).under 1 else (n.inquiry strict x).under 2
  | literal l => return l.value
  | array es => return .array (← inquiryAll strict x 0 es)
  | object ks vs => do Inquiry.object (ks.zip (← inquiryAll strict x 0 vs))
  | template ss ps | streamTemplate ss ps | interpolation ss ps =>
    return .text (ss.headD "" ++ (← inquiryParts strict x 0 ss.tail ps))
  | converter e n args => do
    let c ← Inquiry.converter n
    let v ← (e.inquiry strict x).under 0
    return c.toView v (← inquiryAll strict x 1 args)
  | behavior e _ args => do
    let v ← (e.inquiry strict x).under 0
    let _ ← inquiryAll strict x 1 args
    return v
  | e => .fail (.unsupported e.kind .evaluation)

/-- What evaluating the children from the `k`-th on asks. -/
def inquiryAll (strict : Bool) (x : Scope) (k : Nat) : List Expr → Inquiry (List Value)
  | [] => return []
  | e :: es => do
    let v ← (e.inquiry strict x).under k
    return v :: (← inquiryAll strict x (k + 1) es)

def inquiryParts (strict : Bool) (x : Scope) (k : Nat) (segments : List String) : List Expr → Inquiry String
  | [] => return ""
  | e :: es => do
    let v ← (e.inquiry strict x).under k
    return v.display ++ segments.headD "" ++ (← inquiryParts strict x (k + 1) segments.tail es)

end

/-! ### Nodes -/

/-- The node at the end of the way. -/
def at? : Expr → List Nat → Option Expr
  | e, [] => some e
  | e, k :: p =>
    match e.children[k]? with
    | some c => c.at? p
    | none => none

/-- Whether the first child is the object whose member or item the node gives. -/
def hasObjectPart : Expr → Bool
  | member .. | streamMember .. | keyed .. => true
  | _ => false

/-- Whether the way leads into the object part of an access. -/
def inObjectPart : Expr → List Nat → Bool
  | _, [] => false
  | e, k :: p =>
    (e.hasObjectPart && k == 0) ||
      match e.children[k]? with
      | some c => c.inObjectPart p
      | none => false

/-- What is reported of an exchange to a tracker that watches the expression. -/
def reports (leafOnly : Bool) (w : Watch) (e : Expr) (x : Exchange) : Option Read :=
  x.read?.filter fun r => !r.isProperty || (w = .everything && !(leafOnly && e.inObjectPart x.node))

end Expr

/-! ### Running -/

namespace Inquiry

variable {α β : Type} {ctx : EvalContext} {watched : Bool}

theorem run_bind (m : Inquiry α) (f : α → Inquiry β) (s : Store) (r : Registry) :
    (m >>= f).run ctx watched s r =
      let c := m.run ctx watched s r
      match c.result with
      | .ok a =>
        let c' := (f a).run ctx watched c.store c.registry
        { c' with asked := c.asked ++ c'.asked }
      | .error x => ⟨.error x, c.store, c.registry, c.asked⟩ := by
  induction m generalizing s r with
  | done a => rfl
  | fail x => rfl
  | ask p q next ih =>
    change (ask p q fun a => next a >>= f).run ctx watched s r = _
    simp only [run, ih]
    split <;> rfl

theorem run_under (k : Nat) (m : Inquiry α) (s : Store) (r : Registry) :
    (m.under k).run ctx watched s r =
      let c := m.run ctx watched s r
      { c with asked := c.asked.map (Exchange.under k) } := by
  induction m generalizing s r with
  | done a => rfl
  | fail x => rfl
  | ask p q next ih =>
    simp only [under, run, ih, List.map_cons]
    rfl

/-- Under a watch, who asks for a stream reads it. -/
theorem exists_read_of_asked (m : Inquiry α) {s : Store} {r : Registry} {x : Exchange}
    (hx : x ∈ (m.run ctx true s r).asked) {i : StreamId} (hi : x.question = .stream i) :
    ∃ o, x.read? = some (.stream i o) := by
  induction m generalizing s r with
  | done a => cases hx
  | fail e => cases hx
  | ask p q next ih =>
    simp only [run, List.mem_cons] at hx
    rcases hx with rfl | hx
    · obtain rfl : q = .stream i := hi
      exact ⟨_, rfl⟩
    · exact ih _ hx

/-- The computation is the inquiry with its questions answered, and of what was asked it reports what `f` says. -/
def Describes (ctx : EvalContext) (watched : Bool) (f : Exchange → Option Read) (m : Inquiry α) (d : Eval α) : Prop :=
  ∀ t : EvalState, d.run t =
    let c := m.run ctx watched t.store t.registry
    (c.result, { store := c.store, registry := c.registry, reads := t.reads ++ c.asked.filterMap f })

variable {f : Exchange → Option Read}

theorem describes_pure (a : α) : Describes ctx watched f (pure a) (pure a) := by
  intro t
  change _ = (Except.ok a, { t with reads := t.reads ++ [] })
  rw [Eval.run_pure, List.append_nil]

theorem describes_fail (x : ExpressionError) : Describes ctx watched f (fail x : Inquiry α) (throw x) := by
  intro t
  simp [run]

theorem Describes.bind {m : Inquiry α} {d : Eval α} {n : α → Inquiry β} {g : α → Eval β}
    (h : m.Describes ctx watched f d) (hn : ∀ a, (n a).Describes ctx watched f (g a)) :
    (m >>= n).Describes ctx watched f (d >>= g) := by
  intro t
  rw [Eval.run_bind, h t, run_bind]
  dsimp only
  cases (m.run ctx watched t.store t.registry).result with
  | error x => rfl
  | ok a => simp only [hn a _, List.filterMap_append, List.append_assoc]

theorem Describes.under {k : Nat} {g : Exchange → Option Read} {m : Inquiry α} {d : Eval α}
    (h : m.Describes ctx watched g d) (hf : ∀ x : Exchange, f (x.under k) = g x) :
    (m.under k).Describes ctx watched f d := by
  intro t
  have hfilter (xs : List Exchange) : (xs.map (Exchange.under k)).filterMap f = xs.filterMap g := by
    rw [List.filterMap_map]
    exact congrArg (xs.filterMap ·) (funext hf)
  rw [h t, run_under]
  simp only [hfilter]

end Inquiry

/-- Whether reads of streams are reported. -/
def Watch.coversStreams : Watch → Bool
  | nothing => false
  | streams | everything => true

theorem coversStreams_watchObject (ctx : EvalContext) (w : Watch) :
    (Eval.watchObject ctx w).coversStreams = w.coversStreams := by
  cases w <;> simp only [Eval.watchObject]
  split <;> rfl

namespace Expr

open Eval (lookUp readValue readThrough newObject watchObject)

variable {ctx : EvalContext} {w : Watch} {e c : Expr}

/-! ### What a node reports -/

/-- What is reported of a child, its parent reports, and nothing else of it. -/
theorem reports_under {k : Nat} (hc : e.children[k]? = some c) (hk : (e.hasObjectPart && k == 0) = false)
    (leafOnly : Bool) (x : Exchange) : e.reports leafOnly w (x.under k) = c.reports leafOnly w x := by
  have hpart : e.inObjectPart (x.under k).node = c.inObjectPart x.node := by
    simp [Exchange.under, inObjectPart, hc, hk]
  simp only [reports, Exchange.read?_under, hpart]

/-- Whoever watches is told of all streams that are read. -/
theorem mem_filterMap_reports {leafOnly : Bool} {xs : List Exchange} {i : StreamId} {o : ObserverId} :
    .stream i o ∈ xs.filterMap (e.reports leafOnly w) ↔ .stream i o ∈ xs.filterMap Exchange.read? := by
  simp only [List.mem_filterMap, reports, Option.filter_eq_some_iff]
  simp [Read.isProperty]

theorem reports_under_objectPart (he : e.hasObjectPart = true) (x : Exchange) :
    e.reports ctx.flags.leafOnly w (x.under 0) = c.reports ctx.flags.leafOnly (watchObject ctx w) x := by
  have hpart : e.inObjectPart (x.under 0).node = true := by simp [Exchange.under, inObjectPart, he]
  simp only [reports, Exchange.read?_under, hpart]
  cases w <;> cases h : ctx.flags.leafOnly <;> simp [watchObject, h]

section

variable (e) {leafOnly : Bool}

theorem describes_place (n : String) (a : UInt32) (h : Bool) :
    (Inquiry.place n a h).Describes ctx w.coversStreams (e.reports leafOnly w) (lookUp ctx n a h) := by
  intro t
  simp [Inquiry.place, Inquiry.run, Question.answer, reports, Exchange.read?]

theorem describes_property (o : ObjectId) (n : String) :
    (Inquiry.property o n).Describes ctx w.coversStreams (e.reports leafOnly w) (readValue w o n) := by
  intro t
  rw [Eval.run_readValue]
  cases w <;>
    simp [Inquiry.property, Inquiry.run, Question.answer, reports, Exchange.read?, Option.filter, Read.isProperty,
      Eval.reported, inObjectPart]

theorem describes_through (v : Value) :
    (Inquiry.through v).Describes ctx w.coversStreams (e.reports leafOnly w) (readThrough ctx w v) := by
  intro t
  cases hv : v.stream? with
  | none =>
    rw [Eval.readThrough_of_not_stream ctx w hv, Eval.run_pure]
    cases v
    case stream => simp [Value.stream?] at hv
    all_goals simp [Inquiry.through, Inquiry.run]
  | some i =>
    obtain rfl := Value.eq_of_stream? hv
    by_cases hw : w = .nothing
    · subst hw
      simp [Inquiry.through, Inquiry.run, Question.answer, Watch.coversStreams, readThrough, reports, Exchange.read?]
    · have hcovers : w.coversStreams = true := by cases w <;> first | rfl | exact absurd rfl hw
      rw [Eval.readThrough_stream ctx hw, Eval.run_bind, Eval.run_readStream]
      simp [Inquiry.through, Inquiry.run, Question.answer, hcovers, reports, Exchange.read?, Read.isProperty,
        Option.filter]

/-- Only `in` looks at the store, and only if its right side is an object. -/
theorem describes_operate (op : BinaryOp) (a b : Value) :
    (Inquiry.operate op a b).Describes ctx w.coversStreams (e.reports leafOnly w) (operate op a b) := by
  intro t
  simp only [operate, Eval.run_bind, Eval.run_store, Eval.run_pure]
  cases op
  case isIn =>
    cases b <;>
      simp [Inquiry.operate, Inquiry.run, Question.answer, Operator.binary, reports, Exchange.read?]
  all_goals simp [Inquiry.operate, Inquiry.run, Operator.binary]

theorem describes_object (entries : List (String × Value)) :
    (Inquiry.object entries).Describes ctx w.coversStreams (e.reports leafOnly w) (newObject entries) := by
  intro t
  simp [Inquiry.object, Inquiry.run, Question.answer, Eval.run_newObject, reports, Exchange.read?]

theorem describes_converter (n : String) :
    (Inquiry.converter n).Describes ctx w.coversStreams (e.reports leafOnly w) (Eval.converter ctx n) := by
  intro t
  rw [Eval.run_converter]
  cases h : ctx.converters.get? n <;>
    simp [Inquiry.converter, Inquiry.run, Question.answer, h, reports, Exchange.read?]

end

/-- The object part of an access is watched for streams alone if only the last property counts. -/
theorem describes_objectPart {d : Expr} (hd : d.hasObjectPart = true)
    (h : (e.inquiry ctx.flags.strict ctx.scope).Describes ctx (watchObject ctx w).coversStreams
      (e.reports ctx.flags.leafOnly (watchObject ctx w)) (e.evaluate ctx (watchObject ctx w))) :
    ((e.inquiry ctx.flags.strict ctx.scope).under 0).Describes ctx w.coversStreams (d.reports ctx.flags.leafOnly w)
      (e.evaluate ctx (watchObject ctx w)) := by
  rw [coversStreams_watchObject] at h
  exact h.under (reports_under_objectPart hd)

mutual

/-- An evaluation is the inquiry of its expression, with the questions answered. -/
theorem describes_inquiry (ctx : EvalContext) : ∀ (e : Expr) (w : Watch),
    (e.inquiry ctx.flags.strict ctx.scope).Describes ctx w.coversStreams (e.reports ctx.flags.leafOnly w)
      (e.evaluate ctx w)
  | .this a, w => by
    simp only [inquiry, evaluate]
    exact Inquiry.describes_pure _
  | .scope n a h, w => by
    rw [inquiry, evaluate_scope]
    refine (describes_place _ n a h).bind fun o? => ?_
    cases o? with
    | none => exact Inquiry.describes_pure _
    | some o => exact (describes_property _ o n).bind fun v => Inquiry.describes_pure _
  | .streamScope n a h, w => by
    rw [inquiry, evaluate_streamScope]
    refine (describes_place _ n a h).bind fun o? => ?_
    cases o? with
    | none => exact Inquiry.describes_pure _
    | some o => exact (describes_property _ o n).bind fun v => describes_through _ v
  | .member e n, w => by
    rw [inquiry, evaluate_member]
    refine (describes_objectPart rfl (describes_inquiry ctx e _)).bind fun v => ?_
    cases v
    case object o => exact describes_property _ o n
    all_goals exact Inquiry.describes_pure _
  | .streamMember e n, w => by
    rw [inquiry, evaluate_streamMember]
    refine (describes_objectPart rfl (describes_inquiry ctx e _)).bind fun v => ?_
    cases v
    case object o => exact (describes_property _ o n).bind fun v => describes_through _ v
    all_goals exact Inquiry.describes_pure _
  | .keyed e k, w => by
    rw [inquiry, evaluate_keyed]
    refine (describes_objectPart rfl (describes_inquiry ctx e _)).bind fun v => ?_
    refine ((describes_inquiry ctx k w).under (reports_under rfl rfl _)).bind fun key => ?_
    cases v
    case object o => exact describes_property _ o key.display
    all_goals exact Inquiry.describes_pure _
  | .unary op e, w => by
    simp only [inquiry, evaluate]
    exact ((describes_inquiry ctx e w).under (reports_under rfl rfl _)).bind fun v => Inquiry.describes_pure _
  | .binary op l r, w => by
    rw [inquiry, evaluate_binary]
    refine ((describes_inquiry ctx l w).under (reports_under rfl rfl _)).bind fun a => ?_
    split
    · exact Inquiry.describes_pure _
    · refine ((describes_inquiry ctx r w).under (reports_under rfl rfl _)).bind fun b => ?_
      split
      · exact Inquiry.describes_pure _
      · exact describes_operate _ op a b
  | .conditional c y n, w => by
    simp only [inquiry, evaluate]
    refine ((describes_inquiry ctx c w).under (reports_under rfl rfl _)).bind fun v => ?_
    split
    · exact (describes_inquiry ctx y w).under (reports_under rfl rfl _)
    · exact (describes_inquiry ctx n w).under (reports_under rfl rfl _)
  | .literal l, w => by
    simp only [inquiry, evaluate]
    exact Inquiry.describes_pure _
  | .array es, w => by
    simp only [inquiry, evaluate]
    refine (describes_inquiryAll ctx es w 0 fun j c hc => ?_).bind fun vs => Inquiry.describes_pure _
    exact reports_under (by simpa [children] using hc) rfl _
  | .object ks es, w => by
    simp only [inquiry, evaluate]
    refine (describes_inquiryAll ctx es w 0 fun j c hc => ?_).bind fun vs => describes_object _ _
    exact reports_under (by simpa [children] using hc) rfl _
  | .template ss ps, w => by
    simp only [inquiry, evaluate]
    refine (describes_inquiryParts ctx ps w 0 _ fun j c hc => ?_).bind fun t => Inquiry.describes_pure _
    exact reports_under (by simpa [children] using hc) rfl _
  | .streamTemplate ss ps, w => by
    simp only [inquiry, evaluate]
    refine (describes_inquiryParts ctx ps w 0 _ fun j c hc => ?_).bind fun t => Inquiry.describes_pure _
    exact reports_under (by simpa [children] using hc) rfl _
  | .interpolation ss ps, w => by
    simp only [inquiry, evaluate]
    refine (describes_inquiryParts ctx ps w 0 _ fun j c hc => ?_).bind fun t => Inquiry.describes_pure _
    exact reports_under (by simpa [children] using hc) rfl _
  | .converter e n args, w => by
    simp only [inquiry, evaluate]
    refine (describes_converter _ n).bind fun c => ?_
    refine ((describes_inquiry ctx e w).under (reports_under rfl rfl _)).bind fun v => ?_
    refine (describes_inquiryAll ctx args w 1 fun j c hc => ?_).bind fun vs => Inquiry.describes_pure _
    exact reports_under (by simpa [children, Nat.add_comm] using hc) rfl _
  | .behavior e n args, w => by
    simp only [inquiry, evaluate]
    refine ((describes_inquiry ctx e w).under (reports_under rfl rfl _)).bind fun v => ?_
    refine (describes_inquiryAll ctx args w 1 fun j c hc => ?_).bind fun vs => Inquiry.describes_pure _
    exact reports_under (by simpa [children, Nat.add_comm] using hc) rfl _
  | .callScope .., _ | .callMember .., _ | .callFunction .., _ | .assign .., _ | .taggedTemplate .., _ | .html .., _
  | .forOf .., _ | .identifier .., _ | .arrayPattern .., _ | .objectPattern .., _ => by
    simp only [inquiry, evaluate]
    exact Inquiry.describes_fail _

theorem describes_inquiryAll (ctx : EvalContext) : ∀ (es : List Expr) (w : Watch) (k : Nat)
    {f : Exchange → Option Read},
    (∀ j c, es[j]? = some c → ∀ x : Exchange, f (x.under (k + j)) = c.reports ctx.flags.leafOnly w x) →
      (inquiryAll ctx.flags.strict ctx.scope k es).Describes ctx w.coversStreams f (evaluateAll ctx w es)
  | [], w, k, f, _ => by
    simp only [inquiryAll, evaluateAll]
    exact Inquiry.describes_pure _
  | e :: es, w, k, f, hf => by
    simp only [inquiryAll, evaluateAll]
    refine ((describes_inquiry ctx e w).under (hf 0 e rfl)).bind fun v => ?_
    refine (describes_inquiryAll ctx es w (k + 1) fun j c hc => ?_).bind fun vs => Inquiry.describes_pure _
    simpa [Nat.add_assoc, Nat.add_comm 1] using hf (j + 1) c hc

theorem describes_inquiryParts (ctx : EvalContext) : ∀ (es : List Expr) (w : Watch) (k : Nat) (ss : List String)
    {f : Exchange → Option Read},
    (∀ j c, es[j]? = some c → ∀ x : Exchange, f (x.under (k + j)) = c.reports ctx.flags.leafOnly w x) →
      (inquiryParts ctx.flags.strict ctx.scope k ss es).Describes ctx w.coversStreams f (renderParts ctx w ss es)
  | [], w, k, ss, f, _ => by
    simp only [inquiryParts, renderParts]
    exact Inquiry.describes_pure _
  | e :: es, w, k, ss, f, hf => by
    simp only [inquiryParts, renderParts]
    refine ((describes_inquiry ctx e w).under (hf 0 e rfl)).bind fun v => ?_
    refine (describes_inquiryParts ctx es w (k + 1) ss.tail fun j c hc => ?_).bind fun t => Inquiry.describes_pure _
    simpa [Nat.add_assoc, Nat.add_comm 1] using hf (j + 1) c hc

end

/-- The evaluation of an expression: its result, the store and the registry that it leaves, and what it reports. -/
theorem evaluate_eq_run (ctx : EvalContext) (w : Watch) (e : Expr) (t : EvalState) :
    (e.evaluate ctx w).run t =
      let c := (e.inquiry ctx.flags.strict ctx.scope).run ctx w.coversStreams t.store t.registry
      (c.result,
        { store := c.store
          registry := c.registry
          reads := t.reads ++ c.asked.filterMap (e.reports ctx.flags.leafOnly w) }) :=
  describes_inquiry ctx e w t

end Expr

/-! ### Who asks -/

namespace Inquiry

variable {α β : Type} {P Q : List Nat → Question → Prop}

theorem Every.mono {m : Inquiry α} (h : m.Every P) (hPQ : ∀ p q, P p q → Q p q) : m.Every Q := by
  induction m with
  | done a => trivial
  | fail x => trivial
  | ask p q next ih => exact ⟨hPQ p q h.1, fun a => ih a (h.2 a)⟩

theorem every_bind {m : Inquiry α} {f : α → Inquiry β} (h : m.Every P) (hf : ∀ a, (f a).Every P) :
    (m >>= f).Every P := by
  induction m with
  | done a => exact hf a
  | fail x => trivial
  | ask p q next ih => exact ⟨h.1, fun a => ih a (h.2 a)⟩

theorem every_under {k : Nat} {m : Inquiry α} (h : m.Every Q) (hP : ∀ p q, Q p q → P (k :: p) q) :
    (m.under k).Every P := by
  induction m with
  | done a => trivial
  | fail x => trivial
  | ask p q next ih => exact ⟨hP p q h.1, fun a => ih a (h.2 a)⟩

theorem Every.of_mem_asked {ctx : EvalContext} {watched : Bool} {m : Inquiry α} (h : m.Every P) (s : Store)
    (r : Registry) : ∀ x ∈ (m.run ctx watched s r).asked, P x.node x.question := by
  induction m generalizing s r with
  | done a => exact fun x hx => by cases hx
  | fail x => exact fun x hx => by cases hx
  | ask p q next ih =>
    intro x hx
    rcases List.mem_cons.1 hx with rfl | hx
    · exact h.1
    · exact ih _ (h.2 _) _ _ x hx

end Inquiry

namespace Expr

/-- The questions that a node may ask. -/
inductive Asks : Expr → Question → Prop
  | scope {n a h} : Asks (scope n a h) (.place n a h)
  | scopeValue {n a h o} : Asks (scope n a h) (.property o n)
  | streamScope {n a h} : Asks (streamScope n a h) (.place n a h)
  | streamScopeValue {n a h o} : Asks (streamScope n a h) (.property o n)
  | streamScopeStream {n a h i} : Asks (streamScope n a h) (.stream i)
  | member {e n o} : Asks (member e n) (.property o n)
  | streamMember {e n o} : Asks (streamMember e n) (.property o n)
  | streamMemberStream {e n i} : Asks (streamMember e n) (.stream i)
  | keyed {e k o n} : Asks (keyed e k) (.property o n)
  | presence {l r o n} : Asks (binary .isIn l r) (.presence o n)
  | object {ks vs entries} : Asks (object ks vs) (.object entries)
  | converter {e n args} : Asks (converter e n args) (.converter n)

/-- The question is asked by a node of the expression. -/
def AsksAt (e : Expr) (p : List Nat) (q : Question) : Prop := ∃ d, e.at? p = some d ∧ d.Asks q

variable {e c : Expr}

theorem AsksAt.here {q : Question} (h : e.Asks q) : e.AsksAt [] q := ⟨e, rfl, h⟩

theorem asksAt_under {k : Nat} (hc : e.children[k]? = some c) (p : List Nat) (q : Question) (h : c.AsksAt p q) :
    e.AsksAt (k :: p) q := by
  obtain ⟨d, hd, hq⟩ := h
  exact ⟨d, by simp only [at?, hc, hd], hq⟩

theorem every_through {P : List Nat → Question → Prop} (h : ∀ i, P [] (.stream i)) (v : Value) :
    (Inquiry.through v).Every P := by
  cases v
  case stream i => exact ⟨h i, fun _ => trivial⟩
  all_goals trivial

mutual

/-- Every question is asked by a node that has reason to ask it. -/
theorem every_inquiry (strict : Bool) (x : Scope) : ∀ e : Expr, (e.inquiry strict x).Every e.AsksAt
  | .this a => by
    simp only [inquiry]
    trivial
  | .scope n a h => by
    simp only [inquiry]
    refine Inquiry.every_bind ⟨.here .scope, fun _ => trivial⟩ fun o? => ?_
    cases o? with
    | none => trivial
    | some o => exact Inquiry.every_bind ⟨.here .scopeValue, fun _ => trivial⟩ fun v => trivial
  | .streamScope n a h => by
    simp only [inquiry]
    refine Inquiry.every_bind ⟨.here .streamScope, fun _ => trivial⟩ fun o? => ?_
    cases o? with
    | none => trivial
    | some o =>
      exact Inquiry.every_bind ⟨.here .streamScopeValue, fun _ => trivial⟩
        (every_through fun i => .here .streamScopeStream)
  | .member e n => by
    simp only [inquiry]
    refine Inquiry.every_bind (Inquiry.every_under (every_inquiry strict x e) (asksAt_under rfl)) fun v => ?_
    cases v
    case object o => exact ⟨.here .member, fun _ => trivial⟩
    all_goals trivial
  | .streamMember e n => by
    simp only [inquiry]
    refine Inquiry.every_bind (Inquiry.every_under (every_inquiry strict x e) (asksAt_under rfl)) fun v => ?_
    cases v
    case object o =>
      exact Inquiry.every_bind ⟨.here .streamMember, fun _ => trivial⟩
        (every_through fun i => .here .streamMemberStream)
    all_goals trivial
  | .keyed e k => by
    simp only [inquiry]
    refine Inquiry.every_bind (Inquiry.every_under (every_inquiry strict x e) (asksAt_under rfl)) fun v => ?_
    refine Inquiry.every_bind (Inquiry.every_under (every_inquiry strict x k) (asksAt_under rfl)) fun key => ?_
    cases v
    case object o => exact ⟨.here .keyed, fun _ => trivial⟩
    all_goals trivial
  | .unary op e => by
    simp only [inquiry]
    exact Inquiry.every_bind (Inquiry.every_under (every_inquiry strict x e) (asksAt_under rfl)) fun v => trivial
  | .binary op l r => by
    simp only [inquiry]
    refine Inquiry.every_bind (Inquiry.every_under (every_inquiry strict x l) (asksAt_under rfl)) fun a => ?_
    split
    · trivial
    · refine Inquiry.every_bind (Inquiry.every_under (every_inquiry strict x r) (asksAt_under rfl)) fun b => ?_
      split
      · trivial
      · unfold Inquiry.operate
        split
        · exact ⟨.here .presence, fun _ => trivial⟩
        · trivial
  | .conditional c y n => by
    simp only [inquiry]
    refine Inquiry.every_bind (Inquiry.every_under (every_inquiry strict x c) (asksAt_under rfl)) fun v => ?_
    split
    · exact Inquiry.every_under (every_inquiry strict x y) (asksAt_under rfl)
    · exact Inquiry.every_under (every_inquiry strict x n) (asksAt_under rfl)
  | .literal l => by
    simp only [inquiry]
    trivial
  | .array es => by
    simp only [inquiry]
    refine Inquiry.every_bind (every_inquiryAll strict x es 0 fun j c hc => ?_) fun vs => trivial
    exact asksAt_under (by simpa [children] using hc)
  | .object ks es => by
    simp only [inquiry]
    refine Inquiry.every_bind (every_inquiryAll strict x es 0 fun j c hc => ?_)
      fun vs => ⟨.here .object, fun _ => trivial⟩
    exact asksAt_under (by simpa [children] using hc)
  | .template ss ps => by
    simp only [inquiry]
    refine Inquiry.every_bind (every_inquiryParts strict x ps 0 _ fun j c hc => ?_) fun t => trivial
    exact asksAt_under (by simpa [children] using hc)
  | .streamTemplate ss ps => by
    simp only [inquiry]
    refine Inquiry.every_bind (every_inquiryParts strict x ps 0 _ fun j c hc => ?_) fun t => trivial
    exact asksAt_under (by simpa [children] using hc)
  | .interpolation ss ps => by
    simp only [inquiry]
    refine Inquiry.every_bind (every_inquiryParts strict x ps 0 _ fun j c hc => ?_) fun t => trivial
    exact asksAt_under (by simpa [children] using hc)
  | .converter e n args => by
    simp only [inquiry]
    refine Inquiry.every_bind ⟨.here .converter, fun c? => ?_⟩ fun c => ?_
    · cases c? <;> trivial
    refine Inquiry.every_bind (Inquiry.every_under (every_inquiry strict x e) (asksAt_under rfl)) fun v => ?_
    refine Inquiry.every_bind (every_inquiryAll strict x args 1 fun j c hc => ?_) fun vs => trivial
    exact asksAt_under (by simpa [children, Nat.add_comm] using hc)
  | .behavior e n args => by
    simp only [inquiry]
    refine Inquiry.every_bind (Inquiry.every_under (every_inquiry strict x e) (asksAt_under rfl)) fun v => ?_
    refine Inquiry.every_bind (every_inquiryAll strict x args 1 fun j c hc => ?_) fun vs => trivial
    exact asksAt_under (by simpa [children, Nat.add_comm] using hc)
  | .callScope .. | .callMember .. | .callFunction .. | .assign .. | .taggedTemplate .. | .html .. | .forOf ..
  | .identifier .. | .arrayPattern .. | .objectPattern .. => by
    simp only [inquiry]
    trivial

theorem every_inquiryAll (strict : Bool) (x : Scope) : ∀ (es : List Expr) (k : Nat) {P : List Nat → Question → Prop},
    (∀ j c, es[j]? = some c → ∀ p q, c.AsksAt p q → P ((k + j) :: p) q) → (inquiryAll strict x k es).Every P
  | [], k, P, _ => by
    simp only [inquiryAll]
    trivial
  | e :: es, k, P, hP => by
    simp only [inquiryAll]
    refine Inquiry.every_bind (Inquiry.every_under (every_inquiry strict x e) (hP 0 e rfl)) fun v => ?_
    refine Inquiry.every_bind (every_inquiryAll strict x es (k + 1) fun j c hc => ?_) fun vs => trivial
    simpa [Nat.add_assoc, Nat.add_comm 1] using hP (j + 1) c hc

theorem every_inquiryParts (strict : Bool) (x : Scope) : ∀ (es : List Expr) (k : Nat) (ss : List String)
    {P : List Nat → Question → Prop},
    (∀ j c, es[j]? = some c → ∀ p q, c.AsksAt p q → P ((k + j) :: p) q) → (inquiryParts strict x k ss es).Every P
  | [], k, ss, P, _ => by
    simp only [inquiryParts]
    trivial
  | e :: es, k, ss, P, hP => by
    simp only [inquiryParts]
    refine Inquiry.every_bind (Inquiry.every_under (every_inquiry strict x e) (hP 0 e rfl)) fun v => ?_
    refine Inquiry.every_bind (every_inquiryParts strict x es (k + 1) ss.tail fun j c hc => ?_) fun t => trivial
    simpa [Nat.add_assoc, Nat.add_comm 1] using hP (j + 1) c hc

end

/-- Whatever stands at the end of a way occurs in the expression. -/
theorem occurs_of_at? {d : Expr} : ∀ {e : Expr} {p : List Nat}, e.at? p = some d → Occurs d e
  | e, [], h => by
    obtain rfl := Option.some.inj h
    exact .here
  | e, k :: p, h => by
    unfold at? at h
    split at h
    next c hc => exact .inside (List.mem_of_getElem? hc) (occurs_of_at? h)
    · cases h

/-- The questions that come up are asked by nodes of the expression. -/
theorem asksAt_of_mem_asked {ctx : EvalContext} {watched : Bool} {s : Store} {r : Registry} {x : Exchange}
    (h : x ∈ ((e.inquiry ctx.flags.strict ctx.scope).run ctx watched s r).asked) : e.AsksAt x.node x.question :=
  (every_inquiry ctx.flags.strict ctx.scope e).of_mem_asked s r x h

end Expr

end DataBinding
