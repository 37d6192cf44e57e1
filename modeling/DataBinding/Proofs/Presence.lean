import DataBinding.Proofs.ReleasedOnce
import DataBinding.Proofs.Unread

/-!
# Which names an object has

That an object has a name is something an evaluation can depend on, just as on what it holds under that name. Looking a
name up in the scopes does, reading a member or an item does, and `in` does. Reads are reported, and names are there to
see in the expression; but `in` reports nothing. So adding a property that was reported as read by nobody can change
what an expression gives, if an `in` asked for it (`evaluate_in_gains_name`), and only then (`evaluate_write_of_unread`).
-/

namespace DataBinding

namespace Session

open DataBinding.Expr (Occurs)

variable {s : Session} {o : ObjectId} {n : String} {v : Value}

/-! ### What is held after a property was added -/

theorem mem_sharedInObject {x : Object} {z : Shared} :
    z ∈ sharedInObject x ↔ ∃ m w, x.properties.get? m = some w ∧ z ∈ sharedIn w := by
  simp only [sharedInObject, List.mem_flatMap, Table.mem_values]
  constructor
  · rintro ⟨w, ⟨m, hm⟩, hz⟩
    exact ⟨m, w, hm, hz⟩
  · rintro ⟨m, w, hm, hz⟩
    exact ⟨w, ⟨m, hm⟩, hz⟩

/-- The object goes on to hold what it held. -/
theorem mem_contents_write (habsent : s.store.hasProperty o n = false) {x z : Shared} (hz : z ∈ contents s.store x) :
    z ∈ contents (s.write o n v).session.store x := by
  have hnone : (s.store.object o).properties.get? n = none := by
    simpa [Store.hasProperty, Object.has, Table.contains] using habsent
  cases x with
  | stream i => simpa [contents, streams_write] using hz
  | object p =>
    simp only [contents, mem_sharedInObject, properties_write] at hz ⊢
    obtain ⟨m, w, hm, hz⟩ := hz
    refine ⟨m, w, ?_, hz⟩
    by_cases hp : o = p
    · subst hp
      have hne : n ≠ m := by
        rintro rfl
        rw [hnone] at hm
        cases hm
      rw [if_pos rfl, Table.get?_insert, if_neg hne, hm]
    · rw [if_neg hp, hm]

theorem heldFromOutside_write (s : Session) (o : ObjectId) (n : String) (v : Value) :
    (s.write o n v).session.heldFromOutside = s.heldFromOutside := by
  unfold write
  dsimp only
  split <;> rfl

theorem knows_write {x : Shared} (hx : s.store.Knows x) : (s.write o n v).session.store.Knows x := by
  cases x with
  | stream i => simpa [Store.Knows, streams_write] using hx
  | object p =>
    unfold write
    dsimp only
    split
    · exact Store.knows_setObject _ _ _ (Store.knows_setObject _ _ _ hx)
    · exact Store.knows_setObject _ _ _ hx

/-- What is held goes on to be held when a property is added. -/
theorem mem_held_write (habsent : s.store.hasProperty o n = false) {x : Shared} (hx : x ∈ s.held) :
    x ∈ (s.write o n v).session.held := by
  refine mem_held_of_supported (X := (· ∈ s.held)) (fun z hz => knows_write (knows_of_mem_held hz)) ?_ hx
  intro z hz
  rw [heldFromOutside_write]
  exact (supported_held s z hz).imp_right fun ⟨w, hw, hzw⟩ => ⟨w, hw, mem_contents_write habsent hzw⟩

/-! ### What an evaluation asks -/

/-- What comes up while a system evaluates an expression for who watches everything. -/
def exchanges (s : Session) (y : SystemId) (flags : EvalFlags) (scope : Scope) (host : Option Scope) (e : Expr) :
    List Exchange :=
  match s.systems.get? y with
  | none => []
  | some z =>
    ((e.inquiry flags.strict scope).run { flags, scope, host, converters := z.converters, alive := s.isAlive } true
      s.store z.registry).asked

section

variable {y : SystemId} {flags : EvalFlags} {scope : Scope} {host : Option Scope} {e : Expr}

/-- What is asked of streams is asked of streams that are alive. -/
theorem isAlive_of_mem_exchanges (hs : Sound (· ∈ s.held) s) (hscope : Within (· ∈ s.held) (sharedInScope scope))
    (hhost : ∀ x, host = some x → Within (· ∈ s.held) (sharedInScope x)) {x : Exchange}
    (hx : x ∈ s.exchanges y flags scope host e) {i : StreamId} (hi : x.question = .stream i) : s.isAlive i = true := by
  cases hz : s.systems.get? y with
  | none => simp [exchanges, hz] at hx
  | some z =>
    simp only [exchanges, hz] at hx
    obtain ⟨o, ho⟩ := Inquiry.exists_read_of_asked _ hx hi
    have hread : .stream i o ∈ (s.evaluate y flags scope host .everything e).2.1 := by
      rw [evaluate_of_get? hz, Expr.evaluate_eq_run]
      exact List.mem_append_right _ (Expr.mem_filterMap_reports.2 (List.mem_filterMap.2 ⟨x, hx, ho⟩))
    exact isAlive_of_read (g := s.bare) hs (fun _ => isAlive_iff.2) hscope hhost hread

/-- A property whose name is none of a scope and that is not reported as read was asked for by `in`, or not at all. -/
theorem misses_of_mem_exchanges (hleaf : flags.leafOnly = false)
    (hread : .property o n ∉ (s.evaluate y flags scope host .everything e).2.1)
    (hnames : ∀ a f, ¬Occurs (.scope n a f) e ∧ ¬Occurs (.streamScope n a f) e) {x : Exchange}
    (hx : x ∈ s.exchanges y flags scope host e) (hin : x.question ≠ .presence o n) : x.question.Misses o n false := by
  cases hz : s.systems.get? y with
  | none => simp [exchanges, hz] at hx
  | some z =>
    simp only [exchanges, hz] at hx
    rw [evaluate_of_get? hz, Expr.evaluate_eq_run] at hread
    obtain ⟨d, hd, hq⟩ := Expr.asksAt_of_mem_asked hx
    have hoccurs := Expr.occurs_of_at? hd
    obtain ⟨p, q, a⟩ := x
    cases q
    case place m k f =>
      refine .inr ?_
      rintro rfl
      cases hq
      · exact (hnames k f).1 hoccurs
      · exact (hnames k f).2 hoccurs
    case property p' m =>
      rintro ⟨rfl, rfl⟩
      refine hread (List.mem_append_right _ (List.mem_filterMap.2 ⟨_, hx, ?_⟩))
      simp [Expr.reports, Exchange.read?, Option.filter, hleaf]
    case presence p' m =>
      refine .inr ?_
      rintro ⟨rfl, rfl⟩
      exact hin rfl
    all_goals trivial

/-- Adding a property to an object makes no difference to an expression that does not mention its name as one of a
scope, does not read it, and does not ask by `in` whether it is there. -/
theorem evaluate_write_of_unread {os : List ObserverId} (hs : Sound (· ∈ s.held) s) (hattended : Attended os s)
    (hscope : Within (· ∈ s.held) (sharedInScope scope))
    (hhost : ∀ x, host = some x → Within (· ∈ s.held) (sharedInScope x)) (ho : s.store.Knows (.object o))
    (hleaf : flags.leafOnly = false) (habsent : s.store.hasProperty o n = false)
    (hread : .property o n ∉ (s.evaluate y flags scope host .everything e).2.1)
    (hnames : ∀ a f, ¬Occurs (.scope n a f) e ∧ ¬Occurs (.streamScope n a f) e)
    (hin : ∀ x ∈ s.exchanges y flags scope host e, x.question ≠ .presence o n) :
    ((s.write o n v).session.evaluate y flags scope host .everything e).2 =
      (s.evaluate y flags scope host .everything e).2 := by
  have hmiss : ∀ x ∈ s.exchanges y flags scope host e, x.question.Misses o n false :=
    fun x hx => misses_of_mem_exchanges hleaf hread hnames hx (hin x hx)
  have hliving : ∀ x ∈ s.exchanges y flags scope host e, ∀ i, x.question = .stream i → s.isAlive i = true :=
    fun x hx i => isAlive_of_mem_exchanges hs hscope hhost hx
  cases hz : s.systems.get? y with
  | none => simp [evaluate, systems_write, hz]
  | some z =>
    simp only [exchanges, hz] at hmiss hliving
    rw [evaluate_of_get? hz, evaluate_of_get? (by rw [systems_write, hz])]
    have hdiffers := differsAt_write s (hs.old ho) n v
    rw [habsent] at hdiffers
    obtain ⟨hresult, hasked, -, -⟩ := hdiffers.run _ hmiss
    -- the value may keep streams alive that nobody else held, and the evaluation asks for none of these
    have halike : z.registry.Alike (fun i => s.isAlive i = true) (s.write o n v).session.store z.registry := by
      refine Registry.alike_of_entries rfl rfl fun i p he => ?_
      rw [fresh_write]
      exact hattended.entered ((entryIn_of_get? hz i).trans he)
    have halive (i : StreamId) (hi : s.isAlive i = true) : (s.write o n v).session.isAlive i = true :=
      isAlive_iff.2 (mem_held_write habsent (isAlive_iff.1 hi))
    have hold (i : StreamId) (hi : s.isAlive i = true) : i.number < (s.write o n v).session.store.fresh := by
      rw [fresh_write]
      exact hs.old (hs.known (isAlive_iff.1 hi))
    obtain ⟨hresult', hasked'⟩ := Inquiry.run_of_alike halike (fun _ => id) halive hold (e.inquiry flags.strict scope)
      (hasked ▸ hliving)
    simp only [Expr.evaluate_eq_run, Watch.coversStreams, hresult', hasked', hresult, hasked]

end

/-- A host with an object without properties in a model. -/
private def emptyInModel : List Act :=
  [.command (.makeObject "o" []), .command (.makeObject "model" [("o", .object "o")]),
    .command (.makeScope "scope" "model" none none)]

private def emptyScope : Scope := ⟨⟨4⟩, ⟨⟨2⟩, ⟨3⟩⟩, []⟩

private def asksFor (n : String) : Expr := .binary .isIn (.literal (.text n)) (.scope "o" 0 false)

private theorem names_asksFor {m n : String} (hn : n ≠ "o") (a : UInt32) (f : Bool) :
    ¬Occurs (.scope n a f) (asksFor m) ∧ ¬Occurs (.streamScope n a f) (asksFor m) := by
  constructor
  all_goals
    intro h
    obtain - | ⟨hc, h⟩ := h
    obtain rfl | rfl : _ = Expr.literal _ ∨ _ = Expr.scope .. := by simpa [Expr.children, asksFor] using hc
    all_goals obtain - | ⟨hc, -⟩ := h
    all_goals first | exact hn rfl | cases hc

/-- Asking for one name by `in` is not up to another. -/
theorem evaluate_write_of_unread_in :
    let s := initial.play emptyInModel
    ((s.write ⟨1⟩ "m" (.int 1)).session.evaluate ⟨0⟩ {} emptyScope none .everything (asksFor "n")).2 =
      (s.evaluate ⟨0⟩ {} emptyScope none .everything (asksFor "n")).2 := by
  intro s
  have hknown : (s.store.objects.get? ⟨1⟩).isSome = true := by decide +kernel
  have hasked : ((s.exchanges ⟨0⟩ {} emptyScope none (asksFor "n")).all fun x =>
      match x.question with
      | .presence _ m => m = "n"
      | _ => true) = true := by decide +kernel
  have hsound : Sound (· ∈ s.held) s := sound_initial.play emptyInModel
  obtain ⟨ds, hledger⟩ := exists_ledger emptyInModel
  have hheld : (sharedInScope emptyScope).all s.held.contains = true := by decide +kernel
  have hscope : Within (· ∈ s.held) (sharedInScope emptyScope) := fun x hx =>
    List.contains_iff_mem.1 (List.all_eq_true.1 hheld x hx)
  refine evaluate_write_of_unread hsound hledger.attended hscope (fun _ h => by cases h) hknown rfl (by decide +kernel)
    (by decide +kernel) (names_asksFor (by decide)) fun x hx hq => ?_
  have hx := List.all_eq_true.1 hasked x hx
  rw [hq] at hx
  simp at hx

/-- What an object has is not reported when `in` asks for it: nothing but the name `o` is read, and when the object gets
the name, the expression gives something else. -/
theorem evaluate_in_gains_name :
    let s := initial.play emptyInModel
    let e := Expr.binary .isIn (.literal (.text "n")) (.scope "o" 0 false)
    s.store.hasProperty ⟨1⟩ "n" = false ∧
      (s.evaluate ⟨0⟩ {} emptyScope none .everything e).2.1 = [.property ⟨2⟩ "o"] ∧
      (∀ a f, ¬Occurs (.scope "n" a f) e ∧ ¬Occurs (.streamScope "n" a f) e) ∧
      (s.evaluate ⟨0⟩ {} emptyScope none .everything e).2.2 = .ok (.bool false) ∧
      ((s.write ⟨1⟩ "n" (.int 1)).session.evaluate ⟨0⟩ {} emptyScope none .everything e).2.2 = .ok (.bool true) := by
  intro s e
  exact ⟨by decide +kernel, by decide +kernel, names_asksFor (by decide), by rfl, by rfl⟩

end Session

end DataBinding
