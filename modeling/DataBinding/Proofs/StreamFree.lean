import DataBinding.Proofs.ReadBack

/-!
# Expressions without streams

An expression without stream-aware nodes asks for no stream. All its other questions are about the scopes, the
converters and the objects, and the only thing that an answer can leave behind is a new object
(`Question.answer_of_not_stream`). So its evaluation is a function of these: whoever watches, how much of it, which
streams are alive and what the registry and the observers are makes no difference to the result, and the registry, the
streams and the observers are handed back as they came (`evaluate_of_not_streamAware`).
-/

namespace DataBinding

/-- The store with other streams and observers. -/
def Store.withStreams (s : Store) (streams : Table StreamId Stream) (observers : Table ObserverId Observer) : Store :=
  { s with streams, observers }

/-- The context with less or more to be observed, and with other streams that are alive. -/
def EvalContext.observing (ctx : EvalContext) (leafOnly : Bool) (alive : StreamId → Bool) : EvalContext :=
  { ctx with flags := { ctx.flags with leafOnly }, alive }

namespace EvalContext

variable (ctx : EvalContext) (leafOnly : Bool) (alive : StreamId → Bool)

@[simp] theorem strict_observing : (ctx.observing leafOnly alive).flags.strict = ctx.flags.strict := rfl

@[simp] theorem leafOnly_observing : (ctx.observing leafOnly alive).flags.leafOnly = leafOnly := rfl

@[simp] theorem scope_observing : (ctx.observing leafOnly alive).scope = ctx.scope := rfl

end EvalContext

section

variable {ctx : EvalContext} {s : Store} {r r' : Registry} {leafOnly b b' : Bool} {alive : StreamId → Bool}
  {streams : Table StreamId Stream} {observers : Table ObserverId Observer}

/-- The answer to such a question is up to the scopes, the converters and the objects. -/
theorem Question.answer_of_not_stream {q : Question} (hq : ∀ i, q ≠ .stream i) :
    q.answer (ctx.observing leafOnly alive) b' (s.withStreams streams observers) r' =
      ((q.answer ctx b s r).1, (q.answer ctx b s r).2.1.withStreams streams observers, r') := by
  cases q with
  | stream i => exact absurd rfl (hq i)
  | _ => rfl

theorem Inquiry.run_of_not_stream {α : Type} {m : Inquiry α} (hm : m.Every fun _ q => ∀ i, q ≠ .stream i) :
    m.run (ctx.observing leafOnly alive) b' (s.withStreams streams observers) r' =
      let c := m.run ctx b s r
      ⟨c.result, c.store.withStreams streams observers, r', c.asked⟩ := by
  induction m generalizing s r with
  | done a => rfl
  | fail x => rfl
  | ask p q next ih =>
    simp only [run]
    rw [Question.answer_of_not_stream (r := r) (b := b) hm.1]
    dsimp only
    rw [ih _ (hm.2 _)]

/-- Who asks for no stream reports no read of one, and without a watch nothing at all. -/
theorem Expr.reports_of_not_stream {e : Expr} {w : Watch} {x : Exchange} (hx : ∀ i, x.question ≠ .stream i) {d : Read}
    (hd : e.reports leafOnly w x = some d) : d.isProperty = true ∧ w = .everything := by
  obtain ⟨p, q, a⟩ := x
  obtain ⟨hread, hcovers⟩ := Option.filter_eq_some_iff.1 hd
  cases q with
  | stream i => exact absurd rfl (hx i)
  | property o n =>
    obtain rfl := Option.some.inj hread
    simp only [Read.isProperty, Bool.not_true, Bool.false_or, Bool.and_eq_true, decide_eq_true_eq] at hcovers
    exact ⟨rfl, hcovers.1⟩
  | place | presence | object | converter => cases hread

end

namespace Expr

variable {e : Expr}

theorem every_not_stream (h : e.isStreamAware = false) (strict : Bool) (x : Scope) :
    (e.inquiry strict x).Every fun _ q => ∀ i, q ≠ .stream i := by
  refine (every_inquiry strict x e).mono ?_
  rintro p _ ⟨d, hd, hq⟩ i rfl
  have haware : d.isStreamAware = true := by
    cases hq with
    | streamScopeStream => rfl
    | streamMemberStream => rfl
  exact absurd (isStreamAware_of_occurs (occurs_of_at? hd) haware) (by simp [h])

/-- What an expression without stream-aware nodes comes to is up to the scopes, the converters and the objects. There
are one result and one store for whoever watches and however much of the expression, whichever streams are alive, and
whatever the registry, the streams and the observers are; these three are left as they were. What is reported are
properties that it asks for, and they are reported to a watch of everything alone. -/
theorem evaluate_of_not_streamAware (h : e.isStreamAware = false) (ctx : EvalContext) (s : Store) :
    ∃ (result : Except ExpressionError Value) (s' : Store) (asked : List Exchange),
      ∀ (w : Watch) (leafOnly : Bool) (alive : StreamId → Bool) (streams : Table StreamId Stream)
        (observers : Table ObserverId Observer) (registry : Registry) (reads : List Read),
        let reported := asked.filterMap (e.reports leafOnly w)
        (e.evaluate (ctx.observing leafOnly alive) w).run
            { store := s.withStreams streams observers, registry, reads } =
          (result, { store := s'.withStreams streams observers, registry, reads := reads ++ reported }) ∧
        (∀ r ∈ reported, r.isProperty = true) ∧ (w ≠ .everything → reported = []) := by
  have hevery := every_not_stream h ctx.flags.strict ctx.scope
  let r : Registry := { threshold := 0 }
  let c := (e.inquiry ctx.flags.strict ctx.scope).run ctx false s r
  have hasked : ∀ x ∈ c.asked, ∀ i, x.question ≠ .stream i := hevery.of_mem_asked s r
  refine ⟨c.result, c.store, c.asked, fun w leafOnly alive streams observers r' reads => ⟨?_, ?_, ?_⟩⟩
  · rw [evaluate_eq_run]
    simp only [EvalContext.strict_observing, EvalContext.scope_observing, EvalContext.leafOnly_observing,
      Inquiry.run_of_not_stream (s := s) (r := r) (b := false) hevery, c]
  · intro d hd
    obtain ⟨x, hx, hd⟩ := List.mem_filterMap.1 hd
    exact (reports_of_not_stream (hasked x hx) hd).1
  · intro hw
    refine List.filterMap_eq_nil_iff.2 fun x hx => Option.eq_none_iff_forall_ne_some.2 fun d hd => ?_
    exact hw (reports_of_not_stream (hasked x hx) hd).2

/-- An object literal whose entry is a property of the binding context: read with the whole chain reported, with its
last link reported and with nothing reported, it comes to five. -/
theorem evaluate_of_not_streamAware_literal :
    let e : Expr := .member (.object ["a", "b"] [.literal (.int 1), .scope "x" 0 false]) "b"
    let s : Store := Store.setObject {} ⟨0⟩ (Object.put {} "x" (.int 5))
    let ctx : EvalContext :=
      { flags := {}, scope := ⟨⟨1⟩, ⟨⟨0⟩, ⟨2⟩⟩, []⟩, host := none, converters := ∅, alive := fun _ => true }
    let run (w : Watch) (leafOnly : Bool) (alive : StreamId → Bool) :=
      (e.evaluate (ctx.observing leafOnly alive) w).run { store := s, registry := { threshold := 0 } }
    e.isStreamAware = false ∧ (run .everything false fun _ => true).2.reads.length = 2 ∧
      ∃ s', ∀ w leafOnly alive,
        (run w leafOnly alive).1.toOption.bind Value.int? = some 5 ∧ (run w leafOnly alive).2.store = s' := by
  intro e s ctx run
  have haware : e.isStreamAware = false := rfl
  obtain ⟨result, s', asked, hall⟩ := evaluate_of_not_streamAware haware ctx s
  have hrun (w : Watch) (leafOnly : Bool) (alive : StreamId → Bool) :
      (run w leafOnly alive).1 = result ∧ (run w leafOnly alive).2.store = s'.withStreams ∅ ∅ := by
    have h := (hall w leafOnly alive ∅ ∅ { threshold := 0 } []).1
    exact ⟨congrArg (·.1) h, congrArg (·.2.store) h⟩
  have hfive : (run .nothing false fun _ => true).1.toOption.bind Value.int? = some 5 := by decide +kernel
  have hreads : (run .everything false fun _ => true).2.reads.length = 2 := by decide +kernel
  refine ⟨haware, hreads, _, fun w leafOnly alive => ⟨?_, (hrun w leafOnly alive).2⟩⟩
  rw [(hrun w leafOnly alive).1, ← hfive, (hrun .nothing false fun _ => true).1]

end Expr

end DataBinding
