import Mathlib.Data.List.TakeWhile
import DataBinding.Expr.Validity

/-!
# The first offence

Validation goes through the nodes of a tree in pre-order (`Expr.placed`) and judges each by its place and by the rule
of its kind. The stack never changes that order: whatever stands on it, the walk comes to judging the nodes of the
trees on it one tree after the other, which is also what a recursion over the tree does (`Expr.validateFrom`). So the
error of a tree is the one of the first node that offends, and a node that lies too deep offends by that alone.
-/

namespace DataBinding

namespace Expr

/-- The nodes in pre-order, each with its depth. -/
def placed (depth : Nat) (e : Expr) : List (Expr × Nat) :=
  (e, depth) :: e.children.attach.flatMap fun c => c.1.placed (depth + 1)
termination_by sizeOf e
decreasing_by exact sizeOf_lt_of_mem_children c.2

/-- Validation by recursion over a tree whose root lies at the depth. -/
def validateFrom (depth : Nat) (e : Expr) : Except ValidationError Unit :=
  if maxDepth < depth then .error (.tooDeep maxDepth)
  else do
    e.checkNode
    forM e.children.attach fun c => c.1.validateFrom (depth + 1)
termination_by sizeOf e
decreasing_by exact sizeOf_lt_of_mem_children c.2

/-- The name that a node of a named kind has. -/
def name? : Expr → Option String
  | scope n .. | streamScope n .. | member _ n | streamMember _ n | callScope n .. | callMember _ n _ | identifier n
  | converter _ n _ | behavior _ n _ => some n
  | _ => none

/-- The segments of a node with text, and the parts between them. -/
def segments? : Expr → Option (List String × List Expr)
  | template ss ps | streamTemplate ss ps | taggedTemplate ss _ ps | interpolation ss ps => some (ss, ps)
  | _ => none

/-- The keys of a node with keys, and the values they stand for. -/
def pairs? : Expr → Option (List String × List Expr)
  | object ks vs | objectPattern ks vs => some (ks, vs)
  | _ => none

/-- What a node has to satisfy by itself. -/
structure KeepsRule (e : Expr) : Prop where
  /-- Its name is not blank. -/
  name : ∀ n, e.name? = some n → ∃ c ∈ n.toList, Text.isBlank c = false
  /-- It has one segment more than parts. -/
  segments : ∀ ss ps, e.segments? = some (ss, ps) → ss.length = ps.length + 1
  /-- It has as many keys as values. -/
  pairs : ∀ ks vs, e.pairs? = some (ks, vs) → ks.length = vs.length

/-- The ways in which a node breaks its rule, with the error for each. -/
inductive Breaks (e : Expr) : ValidationError → Prop
  | name {n : String} (h : e.name? = some n) (hblank : ∀ c ∈ n.toList, Text.isBlank c = true) :
    Breaks e (.missingField "name")
  | segments {ss : List String} {ps : List Expr} (h : e.segments? = some (ss, ps)) (hne : ss.length ≠ ps.length + 1) :
    Breaks e (.templateArity ss.length ps.length)
  | pairs {ks : List String} {vs : List Expr} (h : e.pairs? = some (ks, vs)) (hne : ks.length ≠ vs.length) :
    Breaks e (.arityMismatch "values" ks.length vs.length)

/-- Whether a node may stand where it stands. -/
def IsFine (p : Expr × Nat) : Prop := p.2 ≤ maxDepth ∧ p.1.KeepsRule

/-- The error about a node where it stands. Its rule matters only if it does not lie too deep. -/
inductive Offends (p : Expr × Nat) : ValidationError → Prop
  | tooDeep (h : maxDepth < p.2) : Offends p (.tooDeep maxDepth)
  | breaks {x : ValidationError} (hdepth : p.2 ≤ maxDepth) (h : p.1.Breaks x) : Offends p x

/-- What validation makes of one node where it stands. -/
def judge (p : Expr × Nat) : Except ValidationError Unit :=
  if maxDepth < p.2 then .error (.tooDeep maxDepth) else p.1.checkNode

/-! ### The rule of a node -/

theorem trimBlanks_eq_nil_iff (cs : List Char) : Text.trimBlanks cs = [] ↔ ∀ c ∈ cs, Text.isBlank c = true := by
  simp only [Text.trimBlanks, List.reverse_eq_nil_iff, List.dropWhile_eq_nil_iff, List.mem_reverse]
  constructor
  · intro h c hc
    by_contra hne
    -- a character that is not blank survives the first of the two cuts
    have hkept : c ∈ cs.dropWhile Text.isBlank := by
      rw [← List.takeWhile_append_dropWhile (p := Text.isBlank) (l := cs), List.mem_append] at hc
      exact hc.resolve_left fun htaken => hne (List.mem_takeWhile_imp htaken)
    exact hne (h c hkept)
  · intro h c hc
    exact h c ((List.dropWhile_suffix _).subset hc)

theorem checkName_eq (n : String) : checkName n = .ok () ∧ (∃ c ∈ n.toList, Text.isBlank c = false) ∨
    checkName n = .error (.missingField "name") ∧ ∀ c ∈ n.toList, Text.isBlank c = true := by
  by_cases hblank : ∀ c ∈ n.toList, Text.isBlank c = true
  · right
    exact ⟨by simp [checkName, (trimBlanks_eq_nil_iff _).2 hblank], hblank⟩
  · left
    have htrimmed := mt (trimBlanks_eq_nil_iff _).1 hblank
    exact ⟨by simp [checkName, htrimmed], by simpa using hblank⟩

theorem checkNode_of_name {e : Expr} {n : String} (h : e.name? = some n) : e.checkNode = checkName n := by
  cases e <;> cases h <;> rfl

theorem checkNode_of_segments {e : Expr} {ss : List String} {ps : List Expr} (h : e.segments? = some (ss, ps)) :
    e.checkNode = checkSegments ss ps := by
  cases e <;> cases h <;> rfl

theorem checkNode_of_pairs {e : Expr} {ks : List String} {vs : List Expr} (h : e.pairs? = some (ks, vs)) :
    e.checkNode = checkPairs ks vs := by
  cases e <;> cases h <;> rfl

/-- A node has a name, segments or pairs, and no two of them, or no rule applies to it. -/
theorem rule_cases (e : Expr) :
    (∃ n, e.name? = some n ∧ e.segments? = none ∧ e.pairs? = none) ∨
    (∃ ss ps, e.segments? = some (ss, ps) ∧ e.name? = none ∧ e.pairs? = none) ∨
    (∃ ks vs, e.pairs? = some (ks, vs) ∧ e.name? = none ∧ e.segments? = none) ∨
    e.name? = none ∧ e.segments? = none ∧ e.pairs? = none ∧ e.checkNode = .ok () := by
  cases e <;> simp [name?, segments?, pairs?, checkNode]

theorem not_keepsRule_of_breaks {e : Expr} {x : ValidationError} (h : e.Breaks x) : ¬ e.KeepsRule := by
  intro hkeeps
  cases h with
  | name h hblank =>
    obtain ⟨c, hc, hne⟩ := hkeeps.name _ h
    simp [hblank c hc] at hne
  | segments h hne => exact hne (hkeeps.segments _ _ h)
  | pairs h hne => exact hne (hkeeps.pairs _ _ h)

/-- The check of a node passes it if it keeps its rule and otherwise tells how the node breaks it. -/
theorem checkNode_cases (e : Expr) :
    e.checkNode = .ok () ∧ e.KeepsRule ∨ ∃ x, e.checkNode = .error x ∧ e.Breaks x := by
  rcases rule_cases e with ⟨n, hn, hs, hp⟩ | ⟨ss, ps, hs, hn, hp⟩ | ⟨ks, vs, hp, hn, hs⟩ | ⟨hn, hs, hp, hok⟩
  · rw [checkNode_of_name hn]
    rcases checkName_eq n with ⟨hok, hletter⟩ | ⟨herr, hblank⟩
    · exact .inl ⟨hok, by simpa [hn] using hletter, by simp [hs], by simp [hp]⟩
    · exact .inr ⟨_, herr, .name hn hblank⟩
  · rw [checkNode_of_segments hs, checkSegments]
    split
    case isTrue hlen => exact .inl ⟨rfl, by simp [hn], by simp [hs, hlen], by simp [hp]⟩
    case isFalse hne => exact .inr ⟨_, rfl, .segments hs hne⟩
  · rw [checkNode_of_pairs hp, checkPairs]
    split
    case isTrue hlen => exact .inl ⟨rfl, by simp [hn], by simp [hs], by simp [hp, hlen]⟩
    case isFalse hne => exact .inr ⟨_, rfl, .pairs hp hne⟩
  · exact .inl ⟨hok, by simp [hn], by simp [hs], by simp [hp]⟩

/-- A node breaks its rule in one way only, the one that its check tells. -/
theorem checkNode_of_breaks {e : Expr} {x : ValidationError} (h : e.Breaks x) : e.checkNode = .error x := by
  cases h with
  | name h hblank =>
    rw [checkNode_of_name h, checkName, (trimBlanks_eq_nil_iff _).2 hblank]
    rfl
  | segments h hne => rw [checkNode_of_segments h, checkSegments, if_neg hne]
  | pairs h hne => rw [checkNode_of_pairs h, checkPairs, if_neg hne]

theorem judge_eq_ok_iff (p : Expr × Nat) : judge p = .ok () ↔ IsFine p := by
  unfold judge IsFine
  split
  case isTrue hdeep => simp [Nat.not_le.2 hdeep]
  case isFalse hdepth =>
    rcases checkNode_cases p.1 with ⟨hok, hkeeps⟩ | ⟨x, herr, hbreaks⟩
    · simp [hok, hkeeps, Nat.not_lt.1 hdepth]
    · simp [herr, not_keepsRule_of_breaks hbreaks]

theorem judge_eq_error_iff (p : Expr × Nat) (x : ValidationError) : judge p = .error x ↔ Offends p x := by
  unfold judge
  constructor
  · intro h
    split at h
    case isTrue hdeep =>
      cases h
      exact .tooDeep hdeep
    case isFalse hdepth =>
      refine .breaks (Nat.not_lt.1 hdepth) ?_
      rcases checkNode_cases p.1 with ⟨hok, _⟩ | ⟨y, herr, hbreaks⟩
      · simp [hok] at h
      · obtain rfl : y = x := by simpa [herr] using h
        exact hbreaks
  · intro h
    cases h with
    | tooDeep hdeep => rw [if_pos hdeep]
    | breaks hdepth h => rw [if_neg (Nat.not_lt.2 hdepth), checkNode_of_breaks h]

/-! ### One node after the other -/

theorem placed_eq (depth : Nat) (e : Expr) :
    e.placed depth = (e, depth) :: e.children.flatMap (placed (depth + 1)) := by
  rw [placed]
  simp [List.flatMap_def, List.attach_map_val (f := placed (depth + 1))]

theorem validateFrom_def (depth : Nat) (e : Expr) : e.validateFrom depth =
    (judge (e, depth) >>= fun _ => forM e.children (validateFrom (depth + 1))) := by
  rw [validateFrom, judge]
  split
  case isTrue => rfl
  case isFalse =>
    have h := List.forM_map (m := Except ValidationError) (l := e.children.attach) (g := Subtype.val)
      (f := validateFrom (depth + 1))
    rw [List.attach_map_subtype_val] at h
    rw [h]

/-- The first element with `Q` behind elements with `P` is the head, or the head has `P` and it stands in the tail. -/
theorem exists_split_cons {α : Type} {P Q : α → Prop} {a : α} {as : List α} :
    (∃ before p after, a :: as = before ++ p :: after ∧ (∀ q ∈ before, P q) ∧ Q p) ↔
      Q a ∨ P a ∧ ∃ before p after, as = before ++ p :: after ∧ (∀ q ∈ before, P q) ∧ Q p := by
  constructor
  · rintro ⟨before, p, after, heq, hP, hQ⟩
    cases before with
    | nil =>
      obtain ⟨rfl, rfl⟩ := List.cons.inj heq
      exact .inl hQ
    | cons b before =>
      obtain ⟨rfl, rfl⟩ := List.cons.inj heq
      rw [List.forall_mem_cons] at hP
      exact .inr ⟨hP.1, before, p, after, rfl, hP.2, hQ⟩
  · rintro (hQ | ⟨hP, before, p, after, rfl, hbefore, hQ⟩)
    · exact ⟨[], a, as, rfl, by simp, hQ⟩
    · exact ⟨a :: before, p, after, rfl, List.forall_mem_cons.2 ⟨hP, hbefore⟩, hQ⟩

/-- Judging goes on while the nodes are fine and stops at the first that offends, with the error about it. -/
theorem forM_judge_eq_error_iff (ps : List (Expr × Nat)) (x : ValidationError) :
    forM ps judge = .error x ↔
      ∃ before p after, ps = before ++ p :: after ∧ (∀ q ∈ before, IsFine q) ∧ Offends p x := by
  induction ps with
  | nil => simp [pure, Except.pure]
  | cons p ps ih =>
    rw [List.forM_cons, exists_split_cons, ← ih, ← judge_eq_error_iff, ← judge_eq_ok_iff]
    cases judge p <;> simp [bind, Except.bind]

theorem forM_judge_eq_ok_iff (ps : List (Expr × Nat)) : forM ps judge = .ok () ↔ ∀ p ∈ ps, IsFine p := by
  induction ps with
  | nil => simp [pure, Except.pure]
  | cons p ps ih =>
    rw [List.forM_cons, List.forall_mem_cons, ← ih, ← judge_eq_ok_iff]
    cases judge p <;> simp [bind, Except.bind]

/-- The walk judges the nodes of the trees on the stack, in pre-order and one tree after the other. -/
theorem validateAll_eq (stack : List (Expr × Nat)) :
    validateAll stack = forM (stack.flatMap fun p => p.1.placed p.2) judge := by
  fun_induction validateAll stack with
  | case1 => rfl
  | case2 e depth rest hdeep =>
    simp only [List.flatMap_cons, placed_eq depth e, List.cons_append, List.forM_cons, judge, if_pos hdeep]
    rfl
  | case3 e depth rest hdepth x herr =>
    simp only [List.flatMap_cons, placed_eq depth e, List.cons_append, List.forM_cons, judge, if_neg hdepth, herr]
    rfl
  | case4 e depth rest hdepth hok ih =>
    rw [ih, List.flatMap_cons, placed_eq depth e, List.cons_append, List.forM_cons, judge, if_neg hdepth, hok,
      List.flatMap_append, List.flatMap_map]
    rfl

theorem forM_flatMap {α β : Type} (f : α → List β) (g : β → Except ValidationError Unit) (xs : List α) :
    forM (xs.flatMap f) g = forM xs fun x => forM (f x) g := by
  induction xs with
  | nil => rfl
  | cons x xs ih => rw [List.flatMap_cons, List.forM_append, List.forM_cons, ih]

theorem forM_congr {α : Type} {f g : α → Except ValidationError Unit} {xs : List α} (h : ∀ x ∈ xs, f x = g x) :
    forM xs f = forM xs g := by
  induction xs with
  | nil => rfl
  | cons x xs ih =>
    rw [List.forM_cons, List.forM_cons, h x List.mem_cons_self, ih fun y hy => h y (List.mem_cons_of_mem _ hy)]

theorem validateFrom_eq (depth : Nat) (e : Expr) : e.validateFrom depth = forM (e.placed depth) judge := by
  rw [validateFrom_def, placed_eq, List.forM_cons, forM_flatMap,
    forM_congr fun c hc => validateFrom_eq (depth + 1) c]
termination_by sizeOf e
decreasing_by exact sizeOf_lt_of_mem_children hc

/-- What validation makes of a tree. -/
structure Validates (e : Expr) : Prop where
  /-- The walk with a stack answers as the recursion over the tree does. -/
  recursive : e.validate = e.validateFrom 1
  /-- A tree is valid iff all its nodes are fine where they stand, the root at depth one. -/
  valid : e.validate = .ok () ↔ ∀ p ∈ e.placed 1, IsFine p
  /-- Otherwise the error is about the first node in pre-order that is not. -/
  first (x : ValidationError) : e.validate = .error x ↔
    ∃ before p after, e.placed 1 = before ++ p :: after ∧ (∀ q ∈ before, IsFine q) ∧ Offends p x

theorem validate_first_offence (e : Expr) : e.Validates := by
  have heq : e.validate = forM (e.placed 1) judge := by
    rw [validate, validateAll_eq, List.flatMap_cons, List.flatMap_nil, List.append_nil]
  constructor
  case recursive => rw [heq, validateFrom_eq]
  case valid => rw [heq, forM_judge_eq_ok_iff]
  case first =>
    intro x
    rw [heq, forM_judge_eq_error_iff]

end Expr

end DataBinding
