import DataBinding.Proofs.Rounds

/-!
# The last failure of a binding

A binding shows why the last round failed for which it was told of a change, and it shows nothing once such a round has
come to a value (`lastError_play`). Binding and unbinding change nothing about that, whether the round for which it is
bound comes to a value or not: what went wrong before a binding was bound anew is still shown afterwards
(`lastError_after_bind`).
-/

namespace DataBinding

/-- The failure that a binding shows when it was told of a change and has come to the result. -/
def failure? : Except ExpressionError Value → Option BindError
  | .ok _ => none
  | .error e => some (.expression e)

theorem Binding.lastError_refreshed (x : Binding) (result : Except ExpressionError Value) :
    (x.refreshed result).lastError = failure? result := by
  cases result <;> rfl

theorem Binding.lastError_rebound (x : Binding) (result : Except ExpressionError Value) :
    (x.rebound result).lastError = x.lastError := by
  cases result <;> rfl

namespace Session

variable {s t : Session} {a : Act} {as : List Act} {b : BindingId} {d : Command} {r : Round} {x z : Binding}

/-! ### Evaluations after changes -/

/-- The evaluations of a run that bindings begin because they are told of a change, in their order. -/
def reevaluations (s : Session) : List Act → List (BindingId × Except ExpressionError Value)
  | [] => []
  | a :: as => ((s.toldRound? a).map fun r => (r.id, r.result)).toList ++ (s.act a).reevaluations as

/-- What a binding evaluated to when it was last told of a change while it was bound, in a run from the beginning. -/
def lastReevaluation? (as : List Act) (b : BindingId) : Option (Except ExpressionError Value) :=
  ((initial.reevaluations as).filter fun e => e.1 = b).getLast?.map (·.2)

theorem reevaluations_concat (s : Session) (as : List Act) (a : Act) :
    s.reevaluations (as ++ [a]) =
      s.reevaluations as ++ (((s.play as).toldRound? a).map fun r => (r.id, r.result)).toList := by
  induction as generalizing s with
  | nil => simp [reevaluations]
  | cons a' as ih => simp [reevaluations, ih, List.append_assoc]

/-- They are among all evaluations of the run. -/
theorem mem_evaluations_of_mem {e : BindingId × Except ExpressionError Value} (he : e ∈ s.reevaluations as) :
    e ∈ s.evaluations as := by
  induction as generalizing s with
  | nil => cases he
  | cons a as ih =>
    refine (List.mem_append.1 he).elim (fun he => List.mem_append_left _ ?_) fun he => List.mem_append_right _ (ih he)
    obtain ⟨r, hr, rfl⟩ := Option.map_eq_some_iff.1 (Option.mem_toList.1 he)
    rw [evaluation?_eq_round, round?, hr, Option.some_or]
    exact Option.mem_toList.2 rfl

theorem lastReevaluation?_of_told (h : (initial.play as).toldRound? a = some r) :
    lastReevaluation? (as ++ [a]) r.id = some r.result := by
  simp [lastReevaluation?, reevaluations_concat, h, List.filter_append]

theorem lastReevaluation?_of_ne (h : ∀ r, (initial.play as).toldRound? a = some r → r.id ≠ b) :
    lastReevaluation? (as ++ [a]) b = lastReevaluation? as b := by
  have hnone : ((((initial.play as).toldRound? a).map fun r => (r.id, r.result)).toList.filter fun e => e.1 = b) = [] := by
    refine List.filter_eq_nil_iff.2 fun e he hb => ?_
    obtain ⟨r, hr, rfl⟩ := Option.map_eq_some_iff.1 (Option.mem_toList.1 he)
    exact h r hr (by simpa using hb)
  rw [lastReevaluation?, reevaluations_concat, List.filter_append, hnone, List.append_nil, lastReevaluation?]

/-- A binding that is still to be made has not been told of anything. -/
theorem lastReevaluation?_of_new (h : (initial.play as).store.fresh ≤ b.number) : lastReevaluation? as b = none := by
  have hnone : ((initial.reevaluations as).filter fun e => e.1 = b) = [] := by
    refine List.filter_eq_nil_iff.2 fun e he hb => ?_
    obtain rfl : e.1 = b := by simpa using hb
    exact absurd (old_of_evaluations as e (mem_evaluations_of_mem he)) (Nat.not_lt.2 h)
  rw [lastReevaluation?, hnone]
  rfl

/-! ### What an act makes of the failure -/

theorem lastError_of_told (h : Sound (· ∈ s.held) s) (hd : Dated s) (hr : s.toldRound? a = some r)
    (hz : (s.act a).bindings.get? r.id = some z) : z.lastError = failure? r.result := by
  obtain ⟨o, added, ho, -⟩ := (ready_of_told h hd hr).enters
  obtain rfl := Option.some.inj (hz.symm.trans (get?_act_of_toldRound hr ho))
  exact Binding.lastError_refreshed ..

/-- A binding that is bound shows what it did before. -/
theorem lastError_of_bind (h : Sound (· ∈ t.held) t) (hd : Dated t) (hc : s.carriedOut? a = some (t, d))
    (hr : t.bindRound? d = some r) (hz : (s.act a).bindings.get? r.id = some z) :
    ∃ x, s.bindings.get? r.id = some x ∧ z.lastError = x.lastError := by
  obtain ⟨o, added, ho, -⟩ := (ready_of_bind h hd hr).enters
  obtain rfl := Option.some.inj (hz.symm.trans (get?_act_of_bindRound hc hr ho))
  obtain ⟨binding, scope, host, -, hb, -⟩ := bindRound?_eq_some hr
  obtain ⟨ts, us, rfl, -⟩ := eq_of_carriedOut? hc
  refine ⟨r.binding, get?_of_binding? hb, ?_⟩
  rw [Binding.lastError_rebound]
  exact r.binding.lastError_unbound

/-- What a binding shows changes only when it is told of a change. -/
theorem lastError_of_ne (h : Sound (· ∈ s.held) s) (hd : Dated s) (hnot : ∀ r, s.toldRound? a = some r → r.id ≠ b)
    (hz : (s.act a).bindings.get? b = some z) :
    (∃ x, s.bindings.get? b = some x ∧ z.lastError = x.lastError) ∨ s.store.fresh ≤ b.number ∧ z.lastError = none := by
  by_cases hround : ∃ r, s.round? a = some r ∧ r.id = b
  · obtain ⟨r, hr, rfl⟩ := hround
    rcases round?_eq_some hr with htold | ⟨t, d, hc, hbind⟩
    · exact absurd rfl (hnot r htold)
    · refine .inl (lastError_of_bind (sound_carriedOut? h hc) ?_ hc hbind hz)
      obtain ⟨ts, us, rfl, -⟩ := eq_of_carriedOut? hc
      exact hd
  · rcases get?_of_no_round h (fun r hr hb => hround ⟨r, hr, hb⟩) hz with ⟨x, hx, rfl | rfl⟩ | ⟨hnew, -, -, hnone⟩
    · exact .inl ⟨_, hx, rfl⟩
    · exact .inl ⟨x, hx, x.lastError_unbound⟩
    · exact .inr ⟨hnew, hnone⟩

/-- A binding shows the failure of its last evaluation among those for which it was told of a change. -/
theorem lastError_play (as : List Act) {b : BindingId} {x : Binding}
    (hx : (initial.play as).bindings.get? b = some x) : x.lastError = (lastReevaluation? as b).bind failure? := by
  induction as using List.reverseRecOn generalizing x with
  | nil => cases hx
  | append_singleton as a ih =>
    rw [play_append] at hx
    have hsound := sound_initial.play as
    by_cases htold : ∃ r, (initial.play as).toldRound? a = some r ∧ r.id = b
    · obtain ⟨r, hr, rfl⟩ := htold
      rw [lastReevaluation?_of_told hr, Option.bind_some]
      exact lastError_of_told hsound (dated_play as) hr hx
    · have hnot : ∀ r, (initial.play as).toldRound? a = some r → r.id ≠ b := fun r hr hb => htold ⟨r, hr, hb⟩
      rw [lastReevaluation?_of_ne hnot]
      rcases lastError_of_ne hsound (dated_play as) hnot hx with ⟨w, hw, hsame⟩ | ⟨hnew, hnone⟩
      · rw [hsame]
        exact ih hw
      · rw [lastReevaluation?_of_new hnew, hnone]
        rfl

/-- A conditional whose other branch has no value fails when it is told that its condition has changed. -/
theorem lastError_play_conditional :
    let as : List Act := [.command (.makeObject "model" [("ok", .bool true), ("name", .text "Ann")]),
      .command (.makeObject "target" []), .command (.makeScope "scope" "model" none none),
      .command (.makeBinding "b" "main"
        (.ok (.conditional (.scope "ok" 0 false) (.scope "name" 0 false) (.callScope "fallback" [] 0))) "target" "value" {}),
      .command (.bind "b" "scope" none), .step, .step, .command (.set "model" "ok" (.bool false)), .step]
    ∃ x, (initial.play as).bindings.get? ⟨5⟩ = some x ∧
      x.lastError = some (.expression (.unsupported .callScope .evaluation)) := by
  intro as
  have hbinding : ((initial.play as).bindings.get? ⟨5⟩).isSome = true := by decide +kernel
  have hlast : (lastReevaluation? as ⟨5⟩).bind failure? = some (.expression (.unsupported .callScope .evaluation)) := by
    decide +kernel
  obtain ⟨x, hx⟩ := Option.isSome_iff_exists.1 hbinding
  exact ⟨x, hx, (lastError_play as hx).trans hlast⟩

/-- The last evaluation has come to a value, for the binding was bound anew, and yet the failure before is shown. -/
theorem lastError_after_bind :
    let as : List Act := [.command (.makeObject "model" [("ok", .bool true), ("name", .text "Ann")]),
      .command (.makeObject "target" []), .command (.makeScope "scope" "model" none none),
      .command (.makeBinding "b" "main"
        (.ok (.conditional (.scope "ok" 0 false) (.scope "name" 0 false) (.callScope "fallback" [] 0))) "target" "value" {}),
      .command (.bind "b" "scope" none), .step, .step, .command (.set "model" "ok" (.bool false)), .step, .step, .step,
      .command (.unbind "b"), .command (.set "model" "ok" (.bool true)), .step, .command (.bind "b" "scope" none), .step,
      .step]
    (initial.play as).pending = [] ∧ (lastEvaluation? as ⟨5⟩).any Except.isOk = true ∧
      ((initial.play as).bindings.get? ⟨5⟩).map (fun x => (x.isBound, x.lastError)) =
        some (true, some (.expression (.unsupported .callScope .evaluation))) := by
  exact ⟨List.isEmpty_iff.1 (by decide +kernel), by decide +kernel, by decide +kernel⟩

end Session

end DataBinding
