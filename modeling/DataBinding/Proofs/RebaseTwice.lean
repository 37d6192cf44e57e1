import DataBinding.Proofs.RebaseNodes

/-!
# Rebasing twice

A tree is settled if a rebase that visits it finds neither a node of a kind that it refuses nor an access that it
converts. These are exactly the trees that a rebase answers with themselves (`Expr.rebase?_eq_none_iff`), and every
result of a rebase is one of them: a converted access or template is a node whose inside is not visited again, and a
node that is made anew around others is not marked itself.
-/

namespace DataBinding

namespace Expr

variable {marker : Char}

/-- Whether nothing that is visited in the expression is refused or converted. -/
def IsSettled (marker : Char) (e : Expr) : Prop :=
  ∀ c ∈ e.visited, c.kind.isRebasable = true ∧ c.isMarkedAccess marker = false

theorem self_mem_visited (e : Expr) : e ∈ e.visited := by
  rw [visited_eq]
  exact List.mem_cons_self

theorem isSettled_of_not_entered {e : Expr} (he : e.isEntered = false) (hk : e.kind.isRebasable = true)
    (hm : e.isMarkedAccess marker = false) : e.IsSettled marker := by
  intro c hc
  rw [visited_of_not_entered he, List.mem_singleton] at hc
  subst hc
  exact ⟨hk, hm⟩

theorem isSettled_member_iff {o : Expr} {n : String} :
    (member o n).IsSettled marker ↔ isMarked marker n = false ∧ o.IsSettled marker := by
  simp [IsSettled, visited_member, kind, ExprKind.isRebasable, isMarkedAccess]

theorem isSettled_behavior_iff {e : Expr} {n : String} {args : List Expr} :
    (behavior e n args).IsSettled marker ↔ e.IsSettled marker ∧ ∀ d ∈ args, d.IsSettled marker := by
  simp only [IsSettled, visited_behavior, List.forall_mem_cons, List.forall_mem_append, List.forall_mem_flatMap, kind,
    ExprKind.isRebasable, isMarkedAccess, and_self, true_and]

theorem isSettled_template_iff {ss : List String} {ps : List Expr} :
    (template ss ps).IsSettled marker ↔ ∀ d ∈ ps, d.IsSettled marker := by
  simp only [IsSettled, visited_template, List.forall_mem_cons, List.forall_mem_flatMap, kind, ExprKind.isRebasable,
    isMarkedAccess, and_self, true_and]

theorem IsSettled.readsMarked {e : Expr} (h : e.IsSettled marker) : e.readsMarked marker = false := by
  rw [Expr.readsMarked, List.any_eq_false]
  intro c hc
  simp [(h c hc).2]

/-! ### What a rebase leaves alone -/

/-- A rebase leaves the expression the node it is iff the expression is settled. -/
theorem rebase?_eq_none_iff (e : Expr) : e.rebase? marker = .ok none ↔ e.IsSettled marker := by
  rw [rebase?_eq]
  constructor
  · intro h c hc
    unfold accept at h
    split at h
    case h_1 => simp at h
    case h_2 hnone =>
      have hunmarked : e.readsMarked marker = false := by simpa [replaced?] using h
      rw [Expr.readsMarked, List.any_eq_false] at hunmarked
      exact ⟨by simpa using List.find?_eq_none.1 hnone c hc, by simpa using hunmarked c hc⟩
  · intro h
    rw [accept_of_forall fun c hc => (h c hc).1, replaced?, h.readsMarked]
    rfl

/-- Of a settled expression every node is shared. -/
theorem IsSettled.sharing {e : Expr} (h : e.IsSettled marker) : e.sharing marker = List.replicate e.size true := by
  rw [sharing_eq, List.eq_replicate_iff, List.length_map, length_nodes]
  refine ⟨rfl, fun b hb => ?_⟩
  obtain ⟨⟨c, v⟩, hc, rfl⟩ := List.mem_map.1 hb
  cases v with
  | false => rfl
  | true =>
    have hvisited : c ∈ e.visited := List.mem_map.2 ⟨_, List.mem_filter.2 ⟨hc, rfl⟩, rfl⟩
    have hunmarked : c.readsMarked marker = false :=
      IsSettled.readsMarked fun d hd => h d (visited_subset hvisited hd)
    simp [stays, hunmarked]

/-! ### What a rebase makes -/

mutual

theorem isSettled_converted : ∀ (e : Expr), (∀ c ∈ e.visited, c.kind.isRebasable = true) →
    (e.converted marker).IsSettled marker
  | scope n a h, _ => by
    rw [converted]
    split
    case isTrue => exact isSettled_of_not_entered rfl rfl rfl
    case isFalse hm => exact isSettled_of_not_entered rfl rfl (by simpa [isMarkedAccess] using hm)
  | member o n, hv => by
    rw [visited_member, List.forall_mem_cons] at hv
    rw [converted]
    split
    case isTrue => exact isSettled_of_not_entered rfl rfl rfl
    case isFalse hm => exact isSettled_member_iff.2 ⟨by simpa using hm, isSettled_converted o hv.2⟩
  | behavior e n args, hv => by
    rw [visited_behavior, List.forall_mem_cons, List.forall_mem_append] at hv
    rw [converted, isSettled_behavior_iff]
    exact ⟨isSettled_converted e hv.2.1, isSettled_convertedAll args hv.2.2⟩
  | template ss ps, hv => by
    rw [visited_template, List.forall_mem_cons] at hv
    rw [converted]
    split
    case isTrue => exact isSettled_of_not_entered rfl rfl rfl
    case isFalse => exact isSettled_template_iff.2 (isSettled_convertedAll ps hv.2)
  | this _, hv | streamScope .., hv | streamMember .., hv | streamTemplate .., hv | keyed .., hv | callScope .., hv
  | callMember .., hv | callFunction .., hv | unary .., hv | binary .., hv | conditional .., hv | assign .., hv
  | literal .., hv | array .., hv | object .., hv | taggedTemplate .., hv | interpolation .., hv | html .., hv
  | converter .., hv | forOf .., hv | identifier .., hv | arrayPattern .., hv | objectPattern .., hv =>
    isSettled_of_not_entered rfl (hv _ (self_mem_visited _)) rfl

theorem isSettled_convertedAll : ∀ (es : List Expr), (∀ c ∈ es.flatMap visited, c.kind.isRebasable = true) →
    ∀ d ∈ convertedAll marker es, d.IsSettled marker
  | [], _ => by simp [convertedAll]
  | e :: es, hv => by
    rw [List.flatMap_cons, List.forall_mem_append] at hv
    rw [convertedAll, List.forall_mem_cons]
    exact ⟨isSettled_converted e hv.1, isSettled_convertedAll es hv.2⟩

end

/-- A tree on which a rebase has nothing to do. -/
structure IsFixed (marker : Char) (e : Expr) : Prop where
  /-- It succeeds. -/
  rebased : e.rebase marker = .ok e
  /-- Its result is the node that it was given. -/
  same : e.rebase? marker = .ok none
  /-- Each node in it is shared. -/
  shared : e.sharing marker = List.replicate e.size true

/-- What a rebase makes, another rebase for the same marker leaves alone. -/
theorem rebase_twice (marker : Char) (e e' : Expr) (h : e.rebase marker = .ok e') : e'.IsFixed marker := by
  have hsettled : e'.IsSettled marker := by
    rw [rebase_eq] at h
    unfold accept at h
    split at h
    case h_1 => simp at h
    case h_2 hnone =>
      obtain rfl : e.converted marker = e' := by simpa using h
      exact isSettled_converted e fun c hc => by simpa using List.find?_eq_none.1 hnone c hc
  have hsame : e'.rebase? marker = .ok none := (rebase?_eq_none_iff e').2 hsettled
  exact ⟨by simp [rebase, hsame, Except.map], hsame, hsettled.sharing⟩

/-- A behavior around a template with a marked access in it, and around nodes that read through streams already. -/
theorem rebase_twice_mixed :
    let rows := streamMember (keyed (scope "rows$" 0 false) (literal (.int 1))) "size$"
    let name := streamTemplate ["", ""] [scope "name$" 0 true]
    let shown := template ["", " of ", ""] [member (scope "user" 0 false) "count$", scope "total" 0 false]
    let shown' := streamTemplate ["", " of ", ""] [streamMember (scope "user" 0 false) "count$", scope "total" 0 false]
    (behavior shown "in" [rows, name]).rebase '$' = .ok (behavior shown' "in" [rows, name]) ∧
      (behavior shown' "in" [rows, name]).IsFixed '$' := by
  intro rows name shown shown'
  have h : (behavior shown "in" [rows, name]).rebase '$' = .ok (behavior shown' "in" [rows, name]) := by rfl
  exact ⟨h, rebase_twice '$' _ _ h⟩

end Expr

end DataBinding
