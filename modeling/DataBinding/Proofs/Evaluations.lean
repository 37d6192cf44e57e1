import DataBinding.Proofs.Rebinding

/-!
# What a run evaluates

A binding is evaluated when a command binds it and when a task tells it of a change, and at no other time. A run thus
evaluates bindings one at a time, at most one with each act (`evaluation?`), and each binding has an evaluation that was
its last one (`lastEvaluation?`).
-/

namespace DataBinding

namespace Session

variable {s t : Session} {a : Act} {as : List Act} {b c : BindingId} {v : Value}

/-! ### Evaluations -/

/-- What a binding that is told of a change evaluates to, if it is bound. -/
def refreshed? (s : Session) (b : BindingId) : Option (Except ExpressionError Value) := do
  let x ← s.bindings.get? b
  let y ← x.state
  return (s.readAgain b x y).2

/-- The binding that a command binds, and what it evaluates to. A binding that is bound to the scope already is not
evaluated. -/
def bound? (s : Session) : Command → Option (BindingId × Except ExpressionError Value)
  | .bind binding scope host => do
    let (b, x) ← s.binding? binding
    let scope ← s.scope? scope
    let host ← s.host? host
    if x.state.any fun z => z.scope.id = scope.id then none
    else return (b, ((s.boundTo b { scope, host }).readAgain b x { scope, host }).2)
  | _ => none

/-- The binding that an act evaluates, and what it evaluates to. -/
def evaluation? (s : Session) (a : Act) : Option (BindingId × Except ExpressionError Value) :=
  match a, s.pending with
  | .step, .notify w new previous (.binding b :: ls) :: rest =>
    (({ s with pending := .notify w new previous ls :: rest } : Session).refreshed? b).map (b, ·)
  | a, _ => (s.carriedOut? a).bind fun x => x.1.bound? x.2

/-- All evaluations of a run, in their order. -/
def evaluations (s : Session) : List Act → List (BindingId × Except ExpressionError Value)
  | [] => []
  | a :: as => (s.evaluation? a).toList ++ (s.act a).evaluations as

theorem evaluations_concat (s : Session) (as : List Act) (a : Act) :
    s.evaluations (as ++ [a]) = s.evaluations as ++ ((s.play as).evaluation? a).toList := by
  induction as generalizing s with
  | nil => simp [evaluations]
  | cons a' as ih => simp [evaluations, ih, List.append_assoc]

/-- What a binding evaluated to last in a run from the beginning. -/
def lastEvaluation? (as : List Act) (b : BindingId) : Option (Except ExpressionError Value) :=
  ((initial.evaluations as).filter fun e => e.1 = b).getLast?.map (·.2)

theorem lastEvaluation?_of_evaluation {r : Except ExpressionError Value}
    (h : (initial.play as).evaluation? a = some (b, r)) : lastEvaluation? (as ++ [a]) b = some r := by
  simp [lastEvaluation?, evaluations_concat, h, List.filter_append]

/-- An act that does not evaluate the binding leaves its last evaluation as it was. -/
theorem lastEvaluation?_of_ne (h : ∀ r, (initial.play as).evaluation? a ≠ some (b, r)) :
    lastEvaluation? (as ++ [a]) b = lastEvaluation? as b := by
  have hnone : ((initial.play as).evaluation? a).toList.filter (fun e => e.1 = b) = [] := by
    refine List.filter_eq_nil_iff.2 fun e he hb => ?_
    obtain rfl : e.1 = b := by simpa using hb
    exact h e.2 (Option.mem_toList.1 he)
  rw [lastEvaluation?, evaluations_concat, List.filter_append, hnone, List.append_nil, lastEvaluation?]

/-! ### Systems of bindings -/

/-- All bindings belong to systems that there are. -/
def Served (s : Session) : Prop := ∀ b x, s.bindings.get? b = some x → (s.systems.get? x.system).isSome

theorem Served.move {e : Effect} {a b : Ghost × Session} (hm : Move e a b) (h : Served a.2) : Served b.2 := by
  cases hm with
  | bindings _ hs =>
    intro b x hx
    obtain ⟨z, hz, hbecomes⟩ := hs b x hx
    exact hbecomes.system ▸ h b z hz
  | newBinding _ hs _ =>
    intro b x hx
    rw [Table.get?_insert] at hx
    split at hx
    · exact Option.some.inj hx ▸ hs
    · exact h b x hx
  | systems _ hs => exact fun b x hx => hs _ (h b x hx)
  | opening _ _ _ hs => exact fun b x hx => (hs _).trans (h b x hx)
  | destroying | erasing | releasing =>
    intro b x hx
    rw [close_bindings] at hx
    rw [close_systems]
    exact h b x hx
  | _ => exact h

theorem Served.moves {E : Effect → Prop} {a b : Ghost × Session} (hm : Moves E a b) (h : Served a.2) : Served b.2 := by
  induction hm with
  | refl => exact h
  | tail _ hlast ih =>
    obtain ⟨e, -, hlast⟩ := hlast
    exact ih.move hlast

theorem Served.act (h : Served s) (hs : Sound (· ∈ s.held) s) (a : Act) : Served (s.act a) := by
  obtain ⟨g, hm⟩ := moves_act hs (fun _ _ _ => False) a
  exact h.moves hm

theorem served_initial : Served initial := fun _ _ hx => by cases hx

end Session

end DataBinding
