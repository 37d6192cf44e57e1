import DataBinding.Proofs.Confined
import DataBinding.Proofs.Rebinding

/-!
# What leaves sinks and bindings alone

The sinks of the host and the bindings are each the business of a few commands: those that make a sink or give one up
(`Command.isForSinks`), and those that give a binding its turn, make it or let it go (`Command.turns`). All other commands
leave both as they are (`uninvolved_answer`), whatever they write, evaluate or let go of.
-/

namespace DataBinding

/-- The command makes a sink or gives one up. -/
def Command.isForSinks : Command → Bool
  | .subscribe .. | .unsubscribe _ | .drop .sink _ => true
  | _ => false

/-- Whether a command may make a binding, bind or unbind it, or let it go. -/
def Command.turns : Command → Bool
  | .makeFromAttribute .. | .makeBinding .. | .drop .binding _ | .bind .. | .unbind .. => true
  | _ => false

namespace Session

variable {g g' : Ghost} {s t u : Session} {c : Command}

/-- The sinks and the bindings are as they were. -/
structure Uninvolved (s t : Session) : Prop where
  handlers : t.handlers = s.handlers
  bindings : t.bindings = s.bindings

theorem Uninvolved.refl : Uninvolved s s := ⟨rfl, rfl⟩

theorem Uninvolved.trans (h : Uninvolved s t) (h' : Uninvolved t u) : Uninvolved s u :=
  ⟨h'.handlers.trans h.handlers, h'.bindings.trans h.bindings⟩

/-! ### Letting go -/

theorem handlers_letGo (s : Session) {r : Ref} (h : r.thing ≠ .sink) : (s.letGo r).handlers = s.handlers := by
  unfold letGo
  split
  · rfl
  · split
    · exact (steady_letGoObserver ..).handlers
    · rfl
    · split
      · rfl
      · exact (steady_releaseAll ..).handlers
    · split
      · rfl
      · exact (steady_releaseAll ..).handlers
    next hr => exact absurd hr h
    all_goals rfl

theorem bindings_letGo (s : Session) {r : Ref} (hr : r.thing ≠ .binding) : (s.letGo r).bindings = s.bindings := by
  unfold letGo
  split
  · rfl
  · split
    case h_1 => exact bindings_letGoObserver ..
    case h_2 => rfl
    case h_3 h => exact absurd h hr
    case h_4 =>
      split
      · rfl
      · exact bindings_releaseAll ..
    case h_5 =>
      split
      · rfl
      · exact close_bindings ..
    all_goals rfl

theorem handlers_setName (s : Session) (name : String) {r : Ref} (h : r.thing ≠ .sink) :
    (s.setName name r).handlers = s.handlers := by
  unfold setName
  dsimp only
  split
  · rfl
  · exact handlers_letGo _ h

theorem bindings_setName (s : Session) (name : String) {r : Ref} (h : r.thing ≠ .binding) :
    (s.setName name r).bindings = s.bindings := by
  unfold setName
  dsimp only
  split
  · rfl
  · exact bindings_letGo _ h

/-- A thing `k` that is neither a sink nor a binding gets a name. -/
theorem Uninvolved.named {name : String} (k : Thing) {n : Nat} (hk : k ≠ .sink ∧ k ≠ .binding) (h : Uninvolved s t)
    (h' : Uninvolved t u) : Uninvolved s (u.setName name ⟨k, n⟩) :=
  h.trans (h'.trans ⟨handlers_setName u name hk.1, bindings_setName u name hk.2⟩)

theorem uninvolved_letGoObserver (s : Session) (o : ObserverId) : Uninvolved s (s.letGoObserver o) :=
  ⟨(steady_letGoObserver s o).handlers, bindings_letGoObserver s o⟩

theorem uninvolved_letGoRead (s : Session) (reads : List Read) : Uninvolved s (s.letGoRead reads) := by
  induction reads generalizing s with
  | nil => exact .refl
  | cons r reads ih =>
    cases r with
    | property => exact ih s
    | stream i o =>
      simp only [letGoRead]
      split
      · exact ih s
      · exact (uninvolved_letGoObserver s o).trans (ih _)

theorem uninvolved_destroy (s : Session) (o : ObserverId) : Uninvolved s (s.destroy o) :=
  ⟨(steady_destroy s o).handlers, bindings_destroy s o⟩

theorem uninvolved_shutdown (s : Session) (i : SystemId) (y : System) : Uninvolved s (s.shutdown i y) := by
  have hdestroy (os : List ObserverId) (u : Session) : Uninvolved u (os.foldl destroy u) := by
    induction os generalizing u with
    | nil => exact .refl
    | cons o os ih => exact (uninvolved_destroy u o).trans (ih _)
  exact ⟨(hdestroy _ _).handlers, (hdestroy _ _).bindings⟩

/-! ### Writing, telling and evaluating -/

theorem uninvolved_write (s : Session) (o : ObjectId) (n : String) (v : Value) :
    Uninvolved s (s.write o n v).session := by
  unfold write
  dsimp only
  split <;> exact ⟨rfl, rfl⟩

theorem uninvolved_emit (s : Session) (i : StreamId) (v : Value) : Uninvolved s (s.emit i v).session := by
  unfold emit
  split <;> exact ⟨rfl, rfl⟩

theorem uninvolved_terminate (s : Session) (i : StreamId) (e : StreamEvent) :
    Uninvolved s (s.terminate i e).session := by
  unfold terminate
  split <;> exact ⟨rfl, rfl⟩

/-- Making objects changes neither. -/
theorem uninvolved_making (hm : Moves Making (g, s) (g', t)) : Uninvolved s t := by
  obtain ⟨objects, fresh, rfl, -⟩ := making_eq hm
  exact ⟨rfl, rfl⟩

theorem uninvolved_valueOf? (h : Sound g.hand s) {value : HostValue} {v : Value} (hv : s.valueOf? value = some (t, v)) :
    Uninvolved s t := by
  obtain ⟨g', hm, -⟩ := made_valueOf? value h hv
  exact uninvolved_making hm

theorem uninvolved_evaluateAlone (s : Session) (i : SystemId) (y : System) (place : Place) (scope : Scope)
    (host : Option Scope) (options : EvalOptions) (e : Expr) :
    Uninvolved s (s.evaluateAlone i y place scope host options e).session := by
  unfold evaluateAlone
  dsimp only
  split
  · exact .refl
  · exact Uninvolved.trans ⟨handlers_evaluate .., bindings_evaluate ..⟩ (uninvolved_letGoRead ..)

theorem uninvolved_destination (s : Session) (i : SystemId) (flags : EvalFlags) (scope : Scope) (host : Option Scope)
    (e : Expr) (v : Value) : Uninvolved s (s.destination i flags scope host e v).1 := by
  unfold destination
  split <;> exact ⟨rfl, rfl⟩

theorem uninvolved_assign {i : SystemId} {flags : EvalFlags} {scope : Scope} {host : Option Scope} {e : Expr}
    {v : Value} {r : Reaction} (h : s.assign i flags scope host e v = .ok r) : Uninvolved s r.session := by
  have hplace := uninvolved_destination s i flags scope host e v
  obtain ⟨t, d, hd, rfl⟩ := exists_write_of_assign h
  rw [hd] at hplace
  exact hplace.trans (uninvolved_write ..)

theorem uninvolved_updateSource {x : Binding} {v : Value} {r : Reaction} (h : s.updateSource x v = .ok r) :
    Uninvolved s r.session := by
  obtain ⟨y, -, hassign⟩ := exists_assign_of_updateSource h
  exact uninvolved_assign hassign

/-! ### Commands -/

/-- A command that is neither about sinks nor gives a binding its turn leaves all sinks and bindings as they are. -/
theorem uninvolved_answer (h : Sound g.hand s) (hsinks : c.isForSinks = false) (hturns : c.turns = false) :
    Ensures (fun a => Uninvolved s a.session) (s.answer? c) := by
  cases c with
  | subscribe | unsubscribe => cases hsinks
  | makeFromAttribute | makeBinding | bind | unbind => cases hturns
  | makeObject name properties =>
    refine .bind_pair fun t ps hps => ?_
    obtain ⟨g', hm, -⟩ := made_propertiesOf? properties h hps
    exact .some (.named .object (by decide) (uninvolved_making hm) ⟨rfl, rfl⟩)
  | makeSubject name initial =>
    refine .bind_pair fun t x hx => ?_
    obtain ⟨g', hm, -⟩ := made_subjectOf? h hx
    exact .some (.named .stream (by decide) (uninvolved_making hm) ⟨rfl, rfl⟩)
  | makeCold name events =>
    refine .bind_pair fun t es hes => ?_
    obtain ⟨g', hm, -⟩ := made_eventsOf? events h hes
    exact .some (.named .stream (by decide) (uninvolved_making hm) ⟨rfl, rfl⟩)
  | makeScope name context parent override =>
    refine .bind fun o _ => .bind fun outer _ => .bind_pair fun t p hp => ?_
    obtain ⟨g', hm, -⟩ := made_override? h hp
    exact .some (.named .scope (by decide) (uninvolved_making hm) ⟨rfl, rfl⟩)
  | makeSystem name config =>
    simp only [answer?, answerMakeSystem]
    split
    · exact .some .refl
    · exact .some (.named .system (by decide) .refl ⟨rfl, rfl⟩)
  | makeRecorder => exact .some (.named .recorder (by decide) .refl ⟨rfl, rfl⟩)
  | makeCollection => exact .some (.named .collection (by decide) .refl ⟨rfl, rfl⟩)
  | makeRecord => exact .some (.named .record (by decide) .refl ⟨rfl, rfl⟩)
  | drop what name =>
    have hsink : what ≠ .sink := by
      rintro rfl
      cases hsinks
    have hbinding : what ≠ .binding := by
      rintro rfl
      cases hturns
    simp only [answer?, answerDrop]
    split
    · exact .some .refl
    · exact .some ⟨handlers_letGo _ hsink, bindings_letGo _ hbinding⟩
  | set =>
    exact .bind fun _ _ => .valueOf? h fun _ _ _ _ hm => .some ((uninvolved_making hm).trans (uninvolved_write ..))
  | unlisten => exact .bind fun _ _ => .bind fun _ _ => .some ⟨(steady_unlisten ..).handlers, bindings_unlisten ..⟩
  | notify =>
    refine .bind fun _ _ => .valueOf? h fun _ _ _ ht hm => .valueOf? ht fun t _ _ _ hm' => .some ?_
    exact (uninvolved_making (hm.trans hm')).trans ⟨rfl, rfl⟩
  | next =>
    exact .bind fun _ _ => .valueOf? h fun _ _ _ _ hm => .some ((uninvolved_making hm).trans (uninvolved_emit ..))
  | fail | complete => exact .bind fun _ _ => .some (uninvolved_terminate ..)
  | observe system stream name =>
    refine .bind fun _ _ => .bind fun _ _ => ?_
    cases name with
    | none => exact .some ⟨(steady_letGoObserver ..).handlers, bindings_letGoObserver ..⟩
    | some => exact .some (.named .observer (by decide) .refl ⟨rfl, rfl⟩)
  | shutdown => exact .bind fun _ _ => .some (uninvolved_shutdown ..)
  | destroy => exact .bind fun _ _ => .some (uninvolved_destroy ..)
  | evaluate =>
    intro a ha
    cases answer_evaluate ha with
    | refused => exact .refl
    | evaluated => exact uninvolved_evaluateAlone ..
  | assign expression place value =>
    intro a ha
    cases answer_assign ha with
    | refused => exact .refl
    | accepted _ _ hv hr => exact (uninvolved_valueOf? h hv).trans (uninvolved_assign hr)
    | failed hv => exact uninvolved_valueOf? h hv
  | updateSource binding value =>
    intro a ha
    cases answer_updateSource ha with
    | accepted _ hv hr =>
      have hr := (uninvolved_valueOf? h hv).trans (uninvolved_updateSource hr)
      exact hr
    | failed hv => exact uninvolved_valueOf? h hv
  | clearStale | clearRecord =>
    exact .bind fun _ _ => .some ⟨(steady_releaseAll ..).handlers, bindings_releaseAll ..⟩
  | addConverter | get | has | keys | prune | setValue | nextVersion | describe => exact .bind fun _ _ => .some ⟨rfl, rfl⟩
  | listen | same | peek | resolve => exact .bind fun _ _ => .bind fun _ _ => .some ⟨rfl, rfl⟩
  | record => exact .bind fun _ _ => .bind fun _ _ => .bind fun _ _ => .some ⟨rfl, rfl⟩

end Session

end DataBinding
