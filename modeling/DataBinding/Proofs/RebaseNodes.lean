import DataBinding.Expr.Rebase

/-!
# What rebasing changes

Rebasing visits a node and, if the node is a member access, a behavior or a template, what stands in it. Which nodes of
a tree are visited (`Expr.nodes`) and which of those are marked accesses decides everything about a rebase: whether it
fails and with what error, the tree it makes, and which of the nodes it shares (`Expr.rebase_nodes`).
-/

namespace DataBinding

/-- Whether a rebase accepts nodes of the kind. -/
def ExprKind.isRebasable : ExprKind → Bool
  | accessThis | accessScope | accessMember | bindingBehavior | template => true
  | k => k.isStreamAware

namespace Expr

/-- Whether visiting the node goes on to its children. -/
def isEntered : Expr → Bool
  | member .. | behavior .. | template .. => true
  | _ => false

/-- The nodes in pre-order, each with whether it is visited when the root is visited or not. -/
def nodes (visited : Bool) (e : Expr) : List (Expr × Bool) :=
  (e, visited) :: (e.children.attach.map fun c => nodes (visited && e.isEntered) c.1).flatten
termination_by sizeOf e
decreasing_by exact sizeOf_lt_of_mem_children c.2

/-- The visited nodes in pre-order. -/
def visited (e : Expr) : List Expr := ((e.nodes true).filter (·.2)).map (·.1)

/-- Whether the node reads a name that ends in the marker. -/
def isMarkedAccess (marker : Char) : Expr → Bool
  | scope n .. | member _ n => isMarked marker n
  | _ => false

/-- Whether a marked access is visited in the expression, the expression itself included. -/
def readsMarked (marker : Char) (e : Expr) : Bool := e.visited.any (isMarkedAccess marker)

/-- The node with nothing left of its children but how many they are. -/
def bare : Expr → Expr
  | member _ n => .member default n
  | keyed .. => .keyed default default
  | callScope n args a => .callScope n (args.map fun _ => default) a
  | callMember _ n args => .callMember default n (args.map fun _ => default)
  | callFunction _ args => .callFunction default (args.map fun _ => default)
  | unary o _ => .unary o default
  | binary o _ _ => .binary o default default
  | conditional .. => .conditional default default default
  | assign .. => .assign default default
  | array es => .array (es.map fun _ => default)
  | object ks vs => .object ks (vs.map fun _ => default)
  | template ss ps => .template ss (ps.map fun _ => default)
  | taggedTemplate ss _ ps => .taggedTemplate ss default (ps.map fun _ => default)
  | interpolation ss ps => .interpolation ss (ps.map fun _ => default)
  | html ps => .html (ps.map fun _ => default)
  | converter _ n args => .converter default n (args.map fun _ => default)
  | behavior _ n args => .behavior default n (args.map fun _ => default)
  | forOf .. => .forOf default default
  | arrayPattern es => .arrayPattern (es.map fun _ => default)
  | objectPattern ks vs => .objectPattern ks (vs.map fun _ => default)
  | streamMember _ n => .streamMember default n
  | streamTemplate ss ps => .streamTemplate ss (ps.map fun _ => default)
  | e => e

/-- What becomes of a node in a tree, its children aside: a visited access with a marked name and a visited template
around one read through streams, and every other node stays what it was. -/
def becomes (marker : Char) : Expr × Bool → Expr
  | (.scope n a h, true) => if isMarked marker n then .streamScope n a h else .scope n a h
  | (.member o n, true) => if isMarked marker n then (streamMember o n).bare else (member o n).bare
  | (.template ss ps, true) =>
    if (template ss ps).readsMarked marker then (streamTemplate ss ps).bare else (template ss ps).bare
  | (e, _) => e.bare

mutual

/-- The expression with streams in the place of its visited marked accesses and of the visited templates around them. -/
def converted (marker : Char) : Expr → Expr
  | scope n a h => if isMarked marker n then .streamScope n a h else .scope n a h
  | member o n => if isMarked marker n then .streamMember (o.converted marker) n else .member (o.converted marker) n
  | behavior e n args => .behavior (e.converted marker) n (convertedAll marker args)
  | template ss ps =>
    if (template ss ps).readsMarked marker then .streamTemplate ss (convertedAll marker ps)
    else .template ss (convertedAll marker ps)
  | e => e

def convertedAll (marker : Char) : List Expr → List Expr
  | [] => []
  | e :: es => e.converted marker :: convertedAll marker es

end

/-- The outcome `a` of visiting these nodes, or the error about the first of them that cannot be rebased. -/
def accept {α : Type} (cs : List Expr) (a : α) : Except ExpressionError α :=
  match cs.find? (!·.kind.isRebasable) with
  | some c => .error (.unsupported c.kind .rebase)
  | none => .ok a

variable {marker : Char}

/-! ### The nodes of a tree -/

theorem nodes_eq (v : Bool) (e : Expr) : e.nodes v = (e, v) :: e.children.flatMap (nodes (v && e.isEntered)) := by
  rw [nodes, List.flatMap_def, List.attach_map_val (f := nodes (v && e.isEntered))]

theorem not_visited (e : Expr) : ∀ c ∈ e.nodes false, c.2 = false := by
  intro c hc
  rw [nodes_eq, Bool.false_and, List.mem_cons, List.mem_flatMap] at hc
  rcases hc with rfl | ⟨d, hd, hc⟩
  · rfl
  · exact not_visited d c hc
termination_by sizeOf e
decreasing_by exact sizeOf_lt_of_mem_children hd

theorem visited_eq (e : Expr) : e.visited = e :: if e.isEntered then e.children.flatMap visited else [] := by
  unfold visited
  rw [nodes_eq]
  cases e.isEntered with
  | true => simp [List.filter_flatMap, List.map_flatMap]
  | false =>
    have h : (e.children.flatMap (nodes false)).filter (·.2) = [] := by
      rw [List.filter_eq_nil_iff]
      intro c hc
      obtain ⟨d, _, hc⟩ := List.mem_flatMap.1 hc
      simp [not_visited d c hc]
    simp [h]

theorem visited_member (o : Expr) (n : String) : (member o n).visited = member o n :: o.visited := by
  simp [visited_eq (member o n), isEntered, children]

theorem visited_behavior (e : Expr) (n : String) (args : List Expr) :
    (behavior e n args).visited = behavior e n args :: (e.visited ++ args.flatMap visited) := by
  simp [visited_eq (behavior e n args), isEntered, children]

theorem visited_template (ss : List String) (ps : List Expr) :
    (template ss ps).visited = template ss ps :: ps.flatMap visited := by
  simp [visited_eq (template ss ps), isEntered, children]

theorem visited_of_not_entered {e : Expr} (h : e.isEntered = false) : e.visited = [e] := by
  simp [visited_eq e, h]

theorem readsMarked_of_not_entered {e : Expr} (h : e.isEntered = false) :
    e.readsMarked marker = e.isMarkedAccess marker := by
  simp [readsMarked, visited_of_not_entered h]

@[simp] theorem readsMarked_scope (n : String) (a : UInt32) (h : Bool) :
    (scope n a h).readsMarked marker = isMarked marker n :=
  readsMarked_of_not_entered rfl

@[simp] theorem readsMarked_member (o : Expr) (n : String) :
    (member o n).readsMarked marker = (isMarked marker n || o.readsMarked marker) := by
  simp [readsMarked, visited_member, isMarkedAccess]

@[simp] theorem readsMarked_behavior (e : Expr) (n : String) (args : List Expr) :
    (behavior e n args).readsMarked marker = (e.readsMarked marker || args.any (readsMarked marker)) := by
  simp only [readsMarked, visited_behavior, List.any_cons, List.any_append, List.any_flatMap, isMarkedAccess,
    Bool.false_or]
  rfl

@[simp] theorem readsMarked_template (ss : List String) (ps : List Expr) :
    (template ss ps).readsMarked marker = ps.any (readsMarked marker) := by
  simp only [readsMarked, visited_template, List.any_cons, List.any_flatMap, isMarkedAccess, Bool.false_or]
  rfl

/-! ### Acceptance -/

theorem accept_append {α β : Type} (cs ds : List Expr) (a : α) (f : α → β) :
    (accept cs a >>= fun x => accept ds (f x)) = accept (cs ++ ds) (f a) := by
  unfold accept
  rw [List.find?_append]
  cases cs.find? (!·.kind.isRebasable) <;> rfl

theorem accept_cons {α : Type} {c : Expr} (h : c.kind.isRebasable = true) (cs : List Expr) (a : α) :
    accept (c :: cs) a = accept cs a := by
  simp [accept, h]

theorem accept_bind {α β : Type} (cs : List Expr) (a : α) (f : α → β) :
    (accept cs a >>= fun x => pure (f x)) = accept cs (f a) := by
  have h := accept_append cs [] a f
  rwa [List.append_nil] at h

/-! ### The tree that a rebase makes -/

theorem convertedAll_eq (es : List Expr) : convertedAll marker es = es.map (converted marker) := by
  induction es with
  | nil => rfl
  | cons e es ih => simp [convertedAll, ih]

@[simp] theorem length_convertedAll (es : List Expr) : (convertedAll marker es).length = es.length := by
  simp [convertedAll_eq]

mutual

/-- Without a visited marked access nothing is converted. -/
theorem converted_of_unmarked : ∀ (e : Expr), e.readsMarked marker = false → e.converted marker = e
  | scope n a h, he => by
    rw [readsMarked_scope] at he
    simp [converted, he]
  | member o n, he => by
    rw [readsMarked_member, Bool.or_eq_false_iff] at he
    simp [converted, he.1, converted_of_unmarked o he.2]
  | behavior e n args, he => by
    rw [readsMarked_behavior, Bool.or_eq_false_iff] at he
    simp [converted, converted_of_unmarked e he.1, convertedAll_of_unmarked args he.2]
  | template ss ps, he => by
    simp [converted, convertedAll_of_unmarked ps (readsMarked_template ss ps ▸ he), readsMarked_template ss ps ▸ he]
  | this .., _ | keyed .., _ | callScope .., _ | callMember .., _ | callFunction .., _ | unary .., _ | binary .., _
  | conditional .., _ | assign .., _ | literal .., _ | array .., _ | object .., _ | taggedTemplate .., _
  | interpolation .., _ | html .., _ | converter .., _ | forOf .., _ | identifier .., _ | arrayPattern .., _
  | objectPattern .., _ | streamScope .., _ | streamMember .., _ | streamTemplate .., _ => rfl

theorem convertedAll_of_unmarked : ∀ (es : List Expr), es.any (readsMarked marker) = false →
    convertedAll marker es = es
  | [], _ => rfl
  | e :: es, he => by
    rw [List.any_cons, Bool.or_eq_false_iff] at he
    simp [convertedAll, converted_of_unmarked e he.1, convertedAll_of_unmarked es he.2]

end

/-- What takes the place of the expression, which stays iff no marked access is visited in it. -/
def replaced? (marker : Char) (e : Expr) : Option Expr :=
  if e.readsMarked marker then some (e.converted marker) else none

/-- As `replaced?`, of several expressions at once. -/
def replacedAll? (marker : Char) (es : List Expr) : Option (List Expr) :=
  if es.any (readsMarked marker) then some (convertedAll marker es) else none

theorem getD_replaced? (e : Expr) : (e.replaced? marker).getD e = e.converted marker := by
  unfold replaced?
  split
  case isTrue => rfl
  case isFalse h => exact (converted_of_unmarked e (by simpa using h)).symm

theorem getD_replacedAll? (es : List Expr) : (replacedAll? marker es).getD es = convertedAll marker es := by
  unfold replacedAll?
  split
  case isTrue => rfl
  case isFalse h => exact (convertedAll_of_unmarked es (by simpa using h)).symm

theorem isNone_replaced? (e : Expr) : (e.replaced? marker).isNone = !e.readsMarked marker := by
  unfold replaced?
  cases e.readsMarked marker <;> rfl

theorem isNone_replacedAll? (es : List Expr) : (replacedAll? marker es).isNone = !es.any (readsMarked marker) := by
  unfold replacedAll?
  cases es.any (readsMarked marker) <;> rfl

private theorem ite_neither {α : Type} (a b : Bool) (x : α) :
    (if (!a && !b) = true then none else some x) = if (a || b) = true then some x else none := by
  cases a <;> cases b <;> rfl

mutual

theorem rebase?_eq : ∀ (e : Expr), e.rebase? marker = accept e.visited (e.replaced? marker)
  | scope n a h => by
    rw [visited_of_not_entered rfl, accept_cons rfl]
    simp only [rebase?, accept, List.find?_nil, replaced?, readsMarked_scope, converted, Except.ok.injEq]
    cases isMarked marker n <;> rfl
  | member o n => by
    rw [visited_member, accept_cons rfl, rebase?, rebase?_eq o, accept_bind, getD_replaced?]
    congr 1
    simp only [replaced?, readsMarked_member, converted]
    cases isMarked marker n <;> cases o.readsMarked marker <;> rfl
  | behavior e n args => by
    rw [visited_behavior, accept_cons rfl, rebase?, rebase?_eq e, rebaseAll?_eq args]
    simp only [accept_bind, accept_append, getD_replaced?, getD_replacedAll?, isNone_replaced?, isNone_replacedAll?]
    congr 1
    rw [ite_neither, replaced?, readsMarked_behavior, converted]
  | template ss ps => by
    rw [visited_template, accept_cons rfl, rebase?, rebaseAll?_eq ps, accept_bind]
    congr 1
    simp only [replaced?, replacedAll?, readsMarked_template, converted]
    cases ps.any (readsMarked marker) <;> rfl
  | this _ | streamScope .. | streamMember .. | streamTemplate .. => by
    rw [visited_of_not_entered rfl, accept_cons rfl, replaced?, readsMarked_of_not_entered rfl]
    rfl
  | keyed .. | callScope .. | callMember .. | callFunction .. | unary .. | binary .. | conditional .. | assign ..
  | literal .. | array .. | object .. | taggedTemplate .. | interpolation .. | html .. | converter .. | forOf ..
  | identifier .. | arrayPattern .. | objectPattern .. => by
    rw [visited_of_not_entered rfl]
    rfl

theorem rebaseAll?_eq : ∀ (es : List Expr), rebaseAll? marker es = accept (es.flatMap visited) (replacedAll? marker es)
  | [] => rfl
  | e :: es => by
    rw [rebaseAll?, rebase?_eq e, rebaseAll?_eq es, List.flatMap_cons]
    simp only [accept_bind, accept_append, getD_replaced?, getD_replacedAll?, isNone_replaced?, isNone_replacedAll?]
    congr 1
    rw [ite_neither, replacedAll?, List.any_cons, convertedAll]

end

/-! ### The nodes that a rebase shares -/

theorem size_eq (e : Expr) : e.size = sizeAll e.children + 1 := by
  cases e <;> simp [size, children, sizeAll, Nat.add_assoc]

theorem length_flatMap_eq_sizeAll {α : Type} {f : Expr → List α} (es : List Expr)
    (h : ∀ e ∈ es, (f e).length = e.size) : (es.flatMap f).length = sizeAll es := by
  induction es with
  | nil => rfl
  | cons e es ih =>
    rw [List.flatMap_cons, List.length_append, h e List.mem_cons_self, sizeAll]
    rw [ih fun d hd => h d (List.mem_cons_of_mem _ hd)]

theorem length_nodes (v : Bool) (e : Expr) : (e.nodes v).length = e.size := by
  rw [nodes_eq, size_eq, List.length_cons, length_flatMap_eq_sizeAll e.children fun c hc => length_nodes _ c]
termination_by sizeOf e
decreasing_by exact sizeOf_lt_of_mem_children hc

/-- Whether a node stays: it was not visited, or no marked access is visited in it. -/
def stays (marker : Char) (c : Expr × Bool) : Bool := !(c.2 && c.1.readsMarked marker)

theorem stays_unvisited (e : Expr) : (e.nodes false).map (stays marker) = List.replicate e.size true := by
  rw [List.eq_replicate_iff, List.length_map, length_nodes]
  refine ⟨rfl, fun b hb => ?_⟩
  obtain ⟨c, hc, rfl⟩ := List.mem_map.1 hb
  simp [stays, not_visited e c hc]

/-- A node that is neither entered nor a marked access stays with all that is in it. -/
theorem stays_of_plain {e : Expr} (he : e.isEntered = false) (hm : e.isMarkedAccess marker = false) :
    (e.nodes true).map (stays marker) = List.replicate e.size true := by
  have hunvisited : (e.nodes false).map (stays marker) = List.replicate e.size true := stays_unvisited e
  rw [← hunvisited, nodes_eq true, nodes_eq false]
  simp [he, stays, readsMarked_of_not_entered he, hm]

theorem isShared_stays (e : Expr) : isShared ((e.nodes true).map (stays marker)) = !e.readsMarked marker := by
  rw [nodes_eq]
  simp [isShared, stays]

theorem all_isShared_stays (es : List Expr) :
    (es.map fun e => (e.nodes true).map (stays marker)).all isShared = !es.any (readsMarked marker) := by
  simp [List.all_map, Function.comp_def, isShared_stays, List.not_any_eq_all_not]

mutual

theorem sharing_eq : ∀ (e : Expr), e.sharing marker = (e.nodes true).map (stays marker)
  | scope n a h => by
    rw [sharing, isStable, rebase?, nodes_eq]
    simp only [children, List.flatMap_nil, List.map_cons, List.map_nil, stays, readsMarked_scope, Bool.true_and]
    cases isMarked marker n <;> rfl
  | member o n => by
    rw [sharing, sharing_eq o, isShared_stays, nodes_eq _ (member o n)]
    simp [children, isEntered, stays, Bool.and_comm]
  | behavior e n args => by
    rw [sharing, sharing_eq e, sharingAll_eq args, nodes_eq _ (behavior e n args), List.all_cons, isShared_stays,
      all_isShared_stays]
    simp [children, isEntered, stays, List.flatMap_def, Function.comp_def]
  | template ss ps => by
    rw [sharing, sharingAll_eq ps, nodes_eq _ (template ss ps), all_isShared_stays]
    simp [children, isEntered, stays, List.flatMap_def, Function.comp_def]
  | this _ | streamScope .. | streamMember .. | streamTemplate .. | keyed .. | callScope .. | callMember ..
  | callFunction .. | unary .. | binary .. | conditional .. | assign .. | literal .. | array .. | object ..
  | taggedTemplate .. | interpolation .. | html .. | converter .. | forOf .. | identifier .. | arrayPattern ..
  | objectPattern .. => (stays_of_plain rfl rfl).symm

theorem sharingAll_eq : ∀ (es : List Expr), sharingAll marker es = es.map fun e => (e.nodes true).map (stays marker)
  | [] => rfl
  | e :: es => by rw [sharingAll, sharing_eq e, sharingAll_eq es, List.map_cons]

end

/-! ### The nodes of the tree that a rebase makes -/

/-- All nodes in pre-order, without their children. -/
def preorder (e : Expr) : List Expr := (e.nodes false).map fun c => c.1.bare

theorem preorder_eq (e : Expr) : e.preorder = e.bare :: e.children.flatMap preorder := by
  unfold preorder
  rw [nodes_eq]
  simp [List.map_flatMap]

theorem becomes_unvisited (e : Expr) : (e.nodes false).map (becomes marker) = e.preorder :=
  List.map_congr_left fun ⟨d, v⟩ hd => by
    obtain rfl : v = false := not_visited e _ hd
    cases d <;> rfl

theorem becomes_of_not_entered {e : Expr} (he : e.isEntered = false) :
    (e.nodes true).map (becomes marker) = becomes marker (e, true) :: e.children.flatMap preorder := by
  rw [nodes_eq, he]
  simp [List.map_flatMap, becomes_unvisited]

theorem preorder_of_plain {e : Expr} (he : e.isEntered = false) (hb : becomes marker (e, true) = e.bare) :
    e.preorder = (e.nodes true).map (becomes marker) := by
  rw [becomes_of_not_entered he, hb, preorder_eq]

mutual

theorem preorder_converted : ∀ (e : Expr), (e.converted marker).preorder = (e.nodes true).map (becomes marker)
  | scope n a h => by
    rw [becomes_of_not_entered rfl, preorder_eq, converted]
    simp only [becomes, children, List.flatMap_nil]
    cases isMarked marker n <;> rfl
  | member o n => by
    have hchildren : ((member o n).converted marker).children = [o.converted marker] := by
      rw [converted]
      cases isMarked marker n <;> rfl
    rw [preorder_eq, hchildren, nodes_eq _ (member o n)]
    simp only [isEntered, children, List.flatMap_cons, List.flatMap_nil, List.append_nil, List.map_cons,
      preorder_converted o, Bool.true_and, becomes, converted]
    cases isMarked marker n <;> rfl
  | behavior e n args => by
    rw [converted, preorder_eq, nodes_eq _ (behavior e n args)]
    simp only [isEntered, children, List.flatMap_cons, List.map_cons, List.map_append, preorder_converted e,
      preorder_convertedAll args, Bool.true_and, becomes, bare, length_convertedAll, List.map_const']
  | template ss ps => by
    have hchildren : ((template ss ps).converted marker).children = convertedAll marker ps := by
      rw [converted]
      cases (template ss ps).readsMarked marker <;> rfl
    rw [preorder_eq, hchildren, nodes_eq _ (template ss ps), preorder_convertedAll]
    simp only [isEntered, children, List.map_cons, Bool.true_and, becomes, converted]
    cases (template ss ps).readsMarked marker <;> simp [bare, List.map_const']
  | this _ | streamScope .. | streamMember .. | streamTemplate .. | keyed .. | callScope .. | callMember ..
  | callFunction .. | unary .. | binary .. | conditional .. | assign .. | literal .. | array .. | object ..
  | taggedTemplate .. | interpolation .. | html .. | converter .. | forOf .. | identifier .. | arrayPattern ..
  | objectPattern .. => preorder_of_plain rfl rfl

theorem preorder_convertedAll : ∀ (es : List Expr),
    (convertedAll marker es).flatMap preorder = (es.flatMap (nodes true)).map (becomes marker)
  | [] => rfl
  | e :: es => by
    rw [convertedAll, List.flatMap_cons, preorder_converted e, preorder_convertedAll es, List.flatMap_cons,
      List.map_append]

end

/-! ### A rebase as a whole -/

theorem rebase_eq (e : Expr) : e.rebase marker = accept e.visited (e.converted marker) := by
  rw [rebase, rebase?_eq]
  unfold accept
  cases e.visited.find? (!·.kind.isRebasable) with
  | some c => rfl
  | none => simp [Except.map, getD_replaced?]

theorem accept_of_forall {α : Type} {cs : List Expr} (h : ∀ c ∈ cs, c.kind.isRebasable = true) (a : α) :
    accept cs a = .ok a := by
  have hnone : cs.find? (!·.kind.isRebasable) = none := List.find?_eq_none.2 fun c hc => by simp [h c hc]
  simp [accept, hnone]

/-- What is visited in a visited node is visited. -/
theorem visited_subset {c e : Expr} (hc : c ∈ e.visited) : c.visited ⊆ e.visited := by
  rw [visited_eq, List.mem_cons] at hc
  rcases hc with rfl | hc
  · exact List.Subset.refl _
  cases he : e.isEntered with
  | false => simp [he] at hc
  | true =>
    simp only [he, if_true, List.mem_flatMap] at hc
    obtain ⟨d, hd, hc⟩ := hc
    intro x hx
    rw [visited_eq e, he, if_pos rfl]
    exact List.mem_cons_of_mem _ (List.mem_flatMap.2 ⟨d, hd, visited_subset hc hx⟩)
termination_by sizeOf e
decreasing_by exact sizeOf_lt_of_mem_children hd

/-- What rebasing does with a tree. -/
structure Rebases (marker : Char) (e : Expr) : Prop where
  /-- It fails iff a visited node is of a kind that it does not accept, and names the kind of the first such node. -/
  refused (x : ExpressionError) : e.rebase marker = .error x ↔
    ∃ c, e.visited.find? (!·.kind.isRebasable) = some c ∧ x = .unsupported c.kind .rebase
  /-- Otherwise the result is the converted tree. -/
  rebased (h : ∀ c ∈ e.visited, c.kind.isRebasable = true) : e.rebase marker = .ok (e.converted marker)
  /-- The converted tree has the nodes that the nodes of the tree become, in the same order. -/
  nodewise : (e.converted marker).preorder = (e.nodes true).map (becomes marker)
  /-- A visited node is then the node it was iff no marked access is visited in it. -/
  kept (h : ∀ c ∈ e.visited, c.kind.isRebasable = true) :
    ∀ c ∈ e.visited, c.rebase? marker = .ok none ↔ c.readsMarked marker = false
  /-- So a node is shared iff it is not visited or no marked access is visited in it. -/
  shared : e.sharing marker = (e.nodes true).map fun c => !(c.2 && c.1.readsMarked marker)

theorem rebase_nodes (marker : Char) (e : Expr) : e.Rebases marker := by
  constructor
  case refused =>
    intro x
    rw [rebase_eq]
    unfold accept
    cases e.visited.find? (!·.kind.isRebasable) with
    | none => simp
    | some c => simp [eq_comm]
  case rebased =>
    intro h
    rw [rebase_eq, accept_of_forall h]
  case nodewise => exact preorder_converted e
  case kept =>
    intro h c hc
    rw [rebase?_eq, accept_of_forall fun d hd => h d (visited_subset hc hd), Except.ok.injEq, replaced?]
    cases c.readsMarked marker <;> simp
  case shared => exact sharing_eq e

end Expr

end DataBinding
