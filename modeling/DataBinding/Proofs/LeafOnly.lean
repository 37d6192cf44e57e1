import DataBinding.Proofs.Inquiry

/-!
# Observing the last property only

Under `leafOnly` less is reported of an evaluation, and that is all. The object part of an access is evaluated with its
property reads kept back, at any depth, while the reads of streams come through and so do those of keys and arguments.
Which node makes a read is told by the way to it, as in `Expr.readings`; what is kept back is then a matter of the way
alone (`Expr.inObjectPart`).
-/

namespace DataBinding

/-- What had to be asked for the read. -/
def Read.question : Read → Question
  | property o n => .property o n
  | stream i _ => .stream i

theorem Exchange.question_of_read? {x : Exchange} {r : Read} (h : x.read? = some r) : x.question = r.question := by
  obtain ⟨p, q, a⟩ := x
  cases q
  case property => obtain rfl := Option.some.inj h; rfl
  case stream =>
    obtain ⟨o, -, rfl⟩ := Option.map_eq_some_iff.1 h
    rfl
  all_goals cases h

namespace Expr

variable {ctx : EvalContext} {e : Expr}

/-- The reads that evaluating the expression makes, each with the way to the node that makes it. -/
def readings (ctx : EvalContext) (e : Expr) (t : EvalState) : List (List Nat × Read) :=
  ((e.inquiry ctx.flags.strict ctx.scope).run ctx true t.store t.registry).asked.filterMap
    fun x => x.read?.map (x.node, ·)

/-- What is reported to who watches everything. -/
theorem filterMap_reports (leafOnly : Bool) (xs : List Exchange) :
    xs.filterMap (e.reports leafOnly .everything) =
      ((xs.filterMap fun x => x.read?.map (x.node, ·)).filter
        fun m => !m.2.isProperty || !(leafOnly && e.inObjectPart m.1)).map Prod.snd := by
  rw [List.filter_filterMap, List.map_filterMap]
  congr 1
  funext x
  cases h : x.read? <;> simp [reports, h, Option.filter]

/-- The context with one flag set. -/
private abbrev withLeafOnly (ctx : EvalContext) (leafOnly : Bool) : EvalContext :=
  { ctx with flags := { ctx.flags with leafOnly } }

/-- Neither who answers nor what is asked looks at the flag. -/
theorem run_leafOnly {α : Type} (m : Inquiry α) (leafOnly watched : Bool) (s : Store) (r : Registry) :
    m.run (withLeafOnly ctx leafOnly) watched s r = m.run ctx watched s r := by
  induction m generalizing s r with
  | done a => rfl
  | fail x => rfl
  | ask p q next ih =>
    have hq : q.answer (withLeafOnly ctx leafOnly) watched s r = q.answer ctx watched s r := by cases q <;> rfl
    simp only [Inquiry.run, hq, ih]

theorem reads_evaluate (leafOnly : Bool) (t : EvalState) :
    ((e.evaluate (withLeafOnly ctx leafOnly) .everything).run t).2.reads =
      t.reads ++ ((e.readings ctx t).filter fun m => !m.2.isProperty || !(leafOnly && e.inObjectPart m.1)).map
        Prod.snd := by
  rw [evaluate_eq_run, readings]
  simp only [run_leafOnly, filterMap_reports, Watch.coversStreams]

/-- Evaluating with `leafOnly` and without gives the same value or error, and leaves the same store and registry. Every
read is made by a node that has it to make. Without the flag all reads are reported. With it, the reads of streams are
the same in the same order, and of the reads of properties those are reported, in the same order, that are made by nodes
not lying in the object part of an access. -/
theorem evaluate_leafOnly (ctx : EvalContext) (e : Expr) (t : EvalState) :
    let run := fun leafOnly : Bool =>
      (e.evaluate { ctx with flags := { ctx.flags with leafOnly } } .everything).run t
    (run true).1 = (run false).1 ∧
      (run true).2.store = (run false).2.store ∧ (run true).2.registry = (run false).2.registry ∧
      (run true).2.reads.filter (!·.isProperty) = (run false).2.reads.filter (!·.isProperty) ∧
      (run false).2.reads = t.reads ++ (e.readings ctx t).map Prod.snd ∧
      (run true).2.reads = t.reads ++
        ((e.readings ctx t).filter fun m => !m.2.isProperty || !e.inObjectPart m.1).map Prod.snd ∧
      ∀ m ∈ e.readings ctx t, e.AsksAt m.1 m.2.question := by
  intro run
  have hrun (leafOnly : Bool) : (run leafOnly).2.reads = t.reads ++ _ := reads_evaluate leafOnly t
  have hfull : (run false).2.reads = t.reads ++ (e.readings ctx t).map Prod.snd := by
    rw [hrun, List.filter_eq_self.2 (by simp)]
  have hleaf : (run true).2.reads = t.reads ++
      ((e.readings ctx t).filter fun m => !m.2.isProperty || !e.inObjectPart m.1).map Prod.snd := by simp [hrun]
  refine ⟨?_, ?_, ?_, ?_, hfull, hleaf, fun m hm => ?_⟩
  · simp only [run, evaluate_eq_run, run_leafOnly]
  · simp only [run, evaluate_eq_run, run_leafOnly]
  · simp only [run, evaluate_eq_run, run_leafOnly]
  · -- a read that is kept back is one of a property
    rw [hfull, hleaf, List.filter_append, List.filter_append, List.filter_map, List.filter_map, List.filter_filter]
    congr 2
    refine List.filter_congr fun m _ => ?_
    cases h : m.2.isProperty <;> simp [h]
  · obtain ⟨x, hx, hm⟩ := List.mem_filterMap.1 hm
    obtain ⟨r, hr, rfl⟩ := Option.map_eq_some_iff.1 hm
    rw [← Exchange.question_of_read? hr]
    exact asksAt_of_mem_asked hx

/-- Under an access, the object part is not observed at any depth; the key is, but for the object part in it. -/
example : ([[], [0], [0, 0], [1], [1, 0]].filter fun p =>
    !(keyed (member (scope "a" 0 false) "b") (member (scope "c" 0 false) "d")).inObjectPart p) = [[], [1]] := by decide

end Expr

end DataBinding
