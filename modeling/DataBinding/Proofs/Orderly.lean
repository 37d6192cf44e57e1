import DataBinding.Proofs.Evaluations
import DataBinding.Proofs.Upkeep

/-!
# Runs that bindings can keep up with

A binding is told of writes and of emissions. It is not told when a name comes to belong elsewhere, when a property is
given another value that counts as equal to the one before, or when somebody else writes its slot. A run is orderly if
none of this happens to a bound binding, and if bindings are the only listeners (`Orderly`).

Whether a run is orderly can be computed where no observed property has a float in it, for values without floats that
count as equal are the same (`Value.eq_of_equals`, `orderly_of_isOrderly`).
-/

namespace DataBinding

/-! ### Values that count as equal -/

namespace Value

mutual

/-- Whether there is no float in the value. -/
def isExact : Value → Bool
  | .float _ => false
  | .array vs => allExact vs
  | _ => true

def allExact : List Value → Bool
  | [] => true
  | v :: vs => v.isExact && allExact vs

end

mutual

/-- Only floats count as equal to what is different. -/
theorem eq_of_equals : ∀ {v w : Value}, v.isExact = true → v.equals w = true → v = w
  | .array vs, w, h, he => by
    cases w with
    | array ws => exact congrArg Value.array (eq_of_equalsAll (by simpa [isExact] using h) (by simpa [equals] using he))
    | _ => simp [equals] at he
  | .float _, _, h, _ => by simp [isExact] at h
  | .undefined, w, _, he | .null, w, _, he | .bool _, w, _, he | .int _, w, _, he | .text _, w, _, he
  | .object _, w, _, he | .stream _, w, _, he => by cases w <;> simp_all [equals]

theorem eq_of_equalsAll : ∀ {vs ws : List Value}, allExact vs = true → equalsAll vs ws = true → vs = ws
  | [], ws, _, he => by cases ws <;> simp_all [equalsAll]
  | v :: vs, ws, h, he => by
    cases ws with
    | nil => simp [equalsAll] at he
    | cons w ws =>
      obtain ⟨hv, hvs⟩ := Bool.and_eq_true_iff.1 (by simpa [allExact] using h)
      obtain ⟨hvw, hvws⟩ := Bool.and_eq_true_iff.1 (by simpa [equalsAll] using he)
      rw [eq_of_equals hv hvw, eq_of_equalsAll hvs hvws]

end

end Value

/-! ### All that occurs in an expression -/

namespace Expr

mutual

/-- Whether the expression and all that stands in it pass the test. -/
def all (p : Expr → Bool) (e : Expr) : Bool :=
  match e with
  | this .. | scope .. | streamScope .. | literal .. | identifier .. => p e
  | member o _ | streamMember o _ => p e && o.all p
  | keyed o k => p e && (o.all p && k.all p)
  | callScope _ args _ => p e && allOf p args
  | callMember o _ args => p e && (o.all p && allOf p args)
  | callFunction f args => p e && (f.all p && allOf p args)
  | unary _ d => p e && d.all p
  | binary _ l r => p e && (l.all p && r.all p)
  | conditional c y n => p e && (c.all p && (y.all p && n.all p))
  | assign t v => p e && (t.all p && v.all p)
  | array es | arrayPattern es => p e && allOf p es
  | object _ vs | objectPattern _ vs => p e && allOf p vs
  | template _ ps | streamTemplate _ ps | interpolation _ ps => p e && allOf p ps
  | taggedTemplate _ f ps => p e && (f.all p && allOf p ps)
  | html ps => p e && allOf p ps
  | converter d _ args | behavior d _ args => p e && (d.all p && allOf p args)
  | forOf d i => p e && (d.all p && i.all p)

def allOf (p : Expr → Bool) : List Expr → Bool
  | [] => true
  | e :: es => e.all p && allOf p es

end

theorem allOf_eq (p : Expr → Bool) (es : List Expr) : allOf p es = es.all (all p) := by
  induction es with
  | nil => simp [allOf]
  | cons e es ih => simp [allOf, ih]

theorem all_eq (p : Expr → Bool) (e : Expr) : e.all p = (p e && e.children.all (all p)) := by
  cases e <;> simp [all, children, allOf_eq]

theorem all_iff {p : Expr → Bool} {e : Expr} : e.all p = true ↔ ∀ d, Occurs d e → p d = true := by
  constructor
  · intro h d hd
    induction hd with
    | here =>
      rw [all_eq] at h
      exact (Bool.and_eq_true_iff.1 h).1
    | inside hc _ ih =>
      rw [all_eq] at h
      exact ih (List.all_eq_true.1 (Bool.and_eq_true_iff.1 h).2 _ hc)
  · intro h
    rw [all_eq, h e .here, Bool.true_and]
    exact List.all_eq_true.2 fun c hc => all_iff.2 fun d hd => h d (.inside hc hd)
termination_by sizeOf e
decreasing_by exact sizeOf_lt_of_mem_children hc

instance (e : Expr) : Decidable e.IsPlain := decidable_of_iff (e.all isPlainNode = true) all_iff

end Expr

namespace Session

variable {s t : Session} {a : Act} {as bs : List Act}

/-! ### Orderly runs -/

/-- From `s` to `t`, nothing that a bound binding depends on is changed in a way that it cannot be told of: it reports
all that it reads, names belong where they did, and no property that it observes is given another value that counts as
equal to the one before. -/
structure Discernible (s t : Session) : Prop where
  tracked {b : BindingId} {x : Binding} : t.bindings.get? b = some x → x.isBound = true → x.IsTracked
  finds {b : BindingId} {x : Binding} {y : Bound} : t.bindings.get? b = some x → x.state = some y →
    y.Finds x.expression s.store t.store
  exact {b : BindingId} {x : Binding} {p : ObjectId} {n : String} :
    s.bindings.get? b = some x ∨ t.bindings.get? b = some x → x.observations.covers (.property p n) = true →
      (s.store.property p n).equals (t.store.property p n) = true → t.store.property p n = s.store.property p n

/-- The slot of a bound binding stays as it is unless the act evaluates the binding. -/
def KeepsSlots (s : Session) (a : Act) : Prop :=
  ∀ b x, (s.act a).bindings.get? b = some x → x.isBound = true → (∀ r, s.evaluation? a ≠ some (b, r)) →
    (s.act a).store.property x.target x.property = s.store.property x.target x.property

/-- Throughout the run, bindings are the only listeners, what bound ones depend on changes in ways that they can be
told of, and nobody else writes their slots. -/
structure Orderly (as : List Act) : Prop where
  defers : ∀ a ∈ as, a.defers true = true
  discernible {bs : List Act} {a : Act} : bs ++ [a] <+: as → Discernible (initial.play bs) (initial.play (bs ++ [a]))
  slots {bs : List Act} {a : Act} : bs ++ [a] <+: as → (initial.play bs).KeepsSlots a

theorem Orderly.of_append (h : Orderly (as ++ bs)) : Orderly as where
  defers a ha := h.defers a (List.mem_append_left _ ha)
  discernible hbs := h.discernible (hbs.trans (List.prefix_append ..))
  slots hbs := h.slots (hbs.trans (List.prefix_append ..))

/-! ### Computing whether a run is orderly -/

/-- Whether a name that the node looks up belongs in `t` where it belongs in `s`. -/
def keepsName (s t : Session) (y : Bound) : Expr → Bool
  | .scope n k f | .streamScope n k f => y.located t.store n k f = y.located s.store n k f
  | _ => true

/-- Whether no property that the binding observes has a float in it. -/
def readsExact (s : Session) (x : Binding) : Bool :=
  x.observations.entries.all fun e =>
    match e.source with
    | .property p n => (s.store.property p n).isExact
    | _ => true

def isDiscernible (s t : Session) : Bool :=
  (t.bindings.entries.all fun e =>
      e.2.state.all fun y => !e.2.flags.leafOnly && decide e.2.expression.IsPlain && e.2.expression.all (keepsName s t y)) &&
    (s.bindings.entries ++ t.bindings.entries).all fun e => s.readsExact e.2

/-- Whether the slot keeps its value, which has no float in it. -/
def keepsSlot (s t : Session) (x : Binding) : Bool :=
  (s.store.property x.target x.property).isExact &&
    (s.store.property x.target x.property).equals (t.store.property x.target x.property)

def leavesSlots (s : Session) (a : Act) : Bool :=
  (s.act a).bindings.entries.all fun e =>
    !e.2.isBound || (s.evaluation? a).any (fun r => r.1 = e.1) || s.keepsSlot (s.act a) e.2

/-- Whether the run is orderly, as far as that can be computed. -/
def isOrderly (s : Session) : List Act → Bool
  | [] => true
  | a :: as => a.defers true && s.isDiscernible (s.act a) && s.leavesSlots a && (s.act a).isOrderly as

theorem discernible_of_isDiscernible (h : s.isDiscernible t = true) : Discernible s t := by
  obtain ⟨hplain, hexact⟩ := Bool.and_eq_true_iff.1 h
  have hbound {b : BindingId} {x : Binding} {y : Bound} (hx : t.bindings.get? b = some x) (hy : x.state = some y) :
      x.IsTracked ∧ x.expression.all (keepsName s t y) = true := by
    have hall := List.all_eq_true.1 hplain (b, x) (Table.mem_entries.2 hx)
    simp only [hy, Option.all_some, Bool.and_eq_true, decide_eq_true_eq, Bool.not_eq_true'] at hall
    exact ⟨⟨hall.1.2, hall.1.1⟩, hall.2⟩
  constructor
  case tracked =>
    intro b x hx hisBound
    obtain ⟨y, hy⟩ := Option.isSome_iff_exists.1 hisBound
    exact (hbound hx hy).1
  case finds =>
    intro b x y hx hy n k f hd
    have hnames := Expr.all_iff.1 (hbound hx hy).2
    rcases hd with hd | hd
    all_goals simpa [keepsName] using hnames _ hd
  case exact =>
    intro b x p n hx hcovers he
    obtain ⟨e, hmem, hsource⟩ := Observations.covers_iff.1 hcovers
    have hentry : (b, x) ∈ s.bindings.entries ++ t.bindings.entries :=
      List.mem_append.2 (hx.imp Table.mem_entries.2 Table.mem_entries.2)
    have hreads : s.readsExact x = true := List.all_eq_true.1 hexact _ hentry
    have hvalue := List.all_eq_true.1 hreads e hmem
    simp only [hsource] at hvalue
    exact (Value.eq_of_equals hvalue he).symm

theorem keepsSlots_of_leavesSlots (h : s.leavesSlots a = true) : s.KeepsSlots a := by
  intro b x hx hbound hnot
  have hentry := List.all_eq_true.1 h (b, x) (Table.mem_entries.2 hx)
  -- the act evaluates somebody else, so the slot passes the last test
  have hother : (s.evaluation? a).any (fun r => r.1 = b) = false := by
    cases hr : s.evaluation? a with
    | none => rfl
    | some r =>
      have hne : r.1 ≠ b := fun hb => hnot r.2 (by rw [hr, ← hb])
      simpa using hne
  have hkeeps : s.keepsSlot (s.act a) x = true := by simpa [hbound, hother] using hentry
  obtain ⟨hvalue, he⟩ := Bool.and_eq_true_iff.1 hkeeps
  exact (Value.eq_of_equals hvalue he).symm

theorem of_isOrderly_append (h : s.isOrderly as = true) (hbs : bs ++ [a] <+: as) :
    a.defers true = true ∧ Discernible (s.play bs) (s.play (bs ++ [a])) ∧ (s.play bs).KeepsSlots a := by
  induction bs generalizing s as with
  | nil =>
    obtain ⟨cs, rfl⟩ := hbs
    simp only [List.nil_append, List.cons_append, isOrderly, Bool.and_eq_true] at h
    exact ⟨h.1.1.1, discernible_of_isDiscernible h.1.1.2, keepsSlots_of_leavesSlots h.1.2⟩
  | cons b bs ih =>
    obtain ⟨cs, rfl⟩ := hbs
    simp only [List.cons_append, isOrderly, Bool.and_eq_true] at h
    exact ih h.2 (List.prefix_append ..)

theorem orderly_of_isOrderly (h : initial.isOrderly as = true) : Orderly as where
  defers a ha := by
    obtain ⟨bs, cs, rfl⟩ := List.append_of_mem ha
    have hbs : bs ++ [a] <+: bs ++ a :: cs := ⟨cs, by simp⟩
    exact (of_isOrderly_append h hbs).1
  discernible hbs := (of_isOrderly_append h hbs).2.1
  slots hbs := (of_isOrderly_append h hbs).2.2

end Session

end DataBinding
