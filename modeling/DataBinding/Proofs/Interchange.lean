import DataBinding.Proofs.RebaseMeaning
import DataBinding.Session.Change

/-!
# Two ways to ask for streams

The command `subscribe`, and a one-way command with the behavior `subscribe`, come to trees that differ by the behavior
around the expression. A behavior without arguments changes neither what an expression evaluates to nor where a value is
assigned (`Expr.interchangeable_behavior`), and interchangeable expressions make a binding do the same in every session.
Rebasing goes through the behavior, with the same error (`rebase_behavior`), so the two ways cannot be told apart
(`compile_subscribe_behavior`).
-/

namespace DataBinding

namespace Expr

open Eval

/-- Evaluating one of the expressions is evaluating the other, and they denote the same place. -/
structure Interchangeable (e e' : Expr) : Prop where
  evaluate (ctx : EvalContext) (w : Watch) : e'.evaluate ctx w = e.evaluate ctx w
  destination (ctx : EvalContext) (v : Value) : e'.destination ctx v = e.destination ctx v

/-- A behavior without arguments is of no account. -/
theorem interchangeable_behavior (e : Expr) (n : String) : Interchangeable e (behavior e n []) where
  evaluate ctx w := by
    apply ext_run
    intro t
    simp only [Expr.evaluate, evaluateAll, pure_bind, bind_pure]
  destination ctx v := by simp only [Expr.destination]

/-- The behavior stays around whatever takes the place of the expression. -/
theorem rebase_behavior (marker : Char) (e : Expr) (n : String) :
    (behavior e n []).rebase marker = (e.rebase marker).map fun e' => behavior e' n [] := by
  unfold rebase
  rw [rebase?, rebaseAll?]
  cases e.rebase? marker with
  | error x => rfl
  | ok e? => cases e? <;> rfl

end Expr

namespace Session

variable {e e' : Expr} {s : Session} {x : Binding}

theorem evaluate_of_interchangeable (h : e.Interchangeable e') (s : Session) (i : SystemId) (flags : EvalFlags)
    (scope : Scope) (host : Option Scope) (w : Watch) :
    s.evaluate i flags scope host w e' = s.evaluate i flags scope host w e := by
  simp only [evaluate, h.evaluate]

/-- What a binding reads, in which order, and what it gets. -/
theorem readAgain_of_interchangeable (h : e.Interchangeable e') (s : Session) (b : BindingId) (x : Binding)
    (y : Bound) : s.readAgain b { x with expression := e' } y = s.readAgain b { x with expression := e } y := by
  simp only [readAgain, evaluate_of_interchangeable h]

theorem bind_of_interchangeable (h : e.Interchangeable e') (s : Session) (b : BindingId) (x : Binding) (y : Bound) :
    s.bind b { x with expression := e' } y = s.bind b { x with expression := e } y := by
  have hread := readAgain_of_interchangeable h ((s.unbind b).modifyBinding b fun x => { x with state := some y }) b x y
  unfold Session.bind
  dsimp only
  rw [hread]
  rfl

/-- Where the value goes that is written back, if the binding's system exists. -/
theorem updateSource_of_interchangeable (h : e.Interchangeable e') (hs : (s.systems.get? x.system).isSome)
    (v : Value) :
    s.updateSource { x with expression := e' } v = s.updateSource { x with expression := e } v := by
  obtain ⟨z, hz⟩ := Option.isSome_iff_exists.1 hs
  simp only [updateSource, assign, destination, hz, h.destination]

end Session

namespace Instruction

theorem subscribe_not_mem : subscribe ∉ oneWayCommands := by decide

/-- The instruction for an expression that was rebased. -/
def strictly (a : Attribute) : Except ExpressionError Expr → Except BindError Instruction
  | .ok e => .ok ⟨e, a.target, true⟩
  | .error x => .error (.expression x)

theorem compile_subscribe {a : Attribute} (ha : a.command = some subscribe) (marker : Char) (e : Expr) :
    compile marker a e = strictly a (e.rebase marker) := by
  cases he : e.rebase marker with
  | ok e' => simp only [compile, strictly, ha, he, Option.getD_some, if_true]
  | error x => simp only [compile, strictly, ha, he, Option.getD_some, if_true]

/-- A one-way command does as the command `subscribe` for an expression with the behavior. -/
theorem compile_oneWay {a : Attribute} {c : String} (ha : a.command = some c) (hc : c ∈ oneWayCommands) (marker : Char)
    {e : Expr} (he : hasSubscribe e = true) :
    compile marker a e = strictly a (e.rebase marker) := by
  have hne : c ≠ subscribe := fun h => subscribe_not_mem (h ▸ hc)
  have hmem : oneWayCommands.contains c = true := by simpa using hc
  simp only [compile, ha, Option.getD_some, if_neg hne, hmem, if_true, applySubscribe?, he]
  cases e.rebase marker <;> rfl

/-- Asking by the command and asking by the behavior either fail with the same error, or they give bindings of the same
property and with the same flags that evaluate alike, bind alike and write back alike, in every session and whatever
else has become of the bindings. -/
theorem compile_subscribe_behavior {a a' : Attribute} {c : String} (ht : a'.target = a.target)
    (ha : a.command = some subscribe) (ha' : a'.command = some c) (hc : c ∈ oneWayCommands) (marker : Char) (e : Expr) :
    (∃ x, compile marker a e = .error x ∧ compile marker a' (.behavior e subscribe []) = .error x) ∨
      ∃ i i', compile marker a e = .ok i ∧ compile marker a' (.behavior e subscribe []) = .ok i' ∧
        i'.target = i.target ∧ i'.strict = i.strict ∧
        (∀ k config o, Binding.ofInstruction k config o i' =
          { Binding.ofInstruction k config o i with expression := i'.expression }) ∧
        ∀ (s : Session) (b : BindingId) (x : Binding) (y : Bound),
          (∀ w, s.evaluate x.system x.flags y.scope y.host w i'.expression =
            s.evaluate x.system x.flags y.scope y.host w i.expression) ∧
          s.readAgain b { x with expression := i'.expression } y =
            s.readAgain b { x with expression := i.expression } y ∧
          s.bind b { x with expression := i'.expression } y = s.bind b { x with expression := i.expression } y ∧
          ((s.systems.get? x.system).isSome → ∀ v,
            s.updateSource { x with expression := i'.expression } v =
              s.updateSource { x with expression := i.expression } v) := by
  have hbehavior : hasSubscribe (.behavior e subscribe []) = true := by simp [hasSubscribe]
  rw [compile_subscribe ha, compile_oneWay ha' hc marker hbehavior, Expr.rebase_behavior]
  cases he : e.rebase marker with
  | error x => exact .inl ⟨_, rfl, rfl⟩
  | ok e' =>
    have hsame := Expr.interchangeable_behavior e' subscribe
    refine .inr ⟨_, _, rfl, rfl, ht, rfl, fun k config o => ?_, fun s b x y => ⟨fun w => ?_, ?_, ?_, fun hs v => ?_⟩⟩
    · simp only [Binding.ofInstruction, ht]
    · exact Session.evaluate_of_interchangeable hsame ..
    · exact Session.readAgain_of_interchangeable hsame ..
    · exact Session.bind_of_interchangeable hsame ..
    · exact Session.updateSource_of_interchangeable hsame hs v

/-- The case of a member of a stream's value and the command `to-view`. -/
theorem compile_subscribe_behavior_member :
    let a : Attribute := { rawName := "text.subscribe", rawValue := "", target := "text", command := some "subscribe" }
    let a' : Attribute := { rawName := "text.to-view", rawValue := "", target := "text", command := some "to-view" }
    let e : Expr := .member (.scope "user$" 0 false) "name"
    let e' : Expr := .member (.streamScope "user$" 0 false) "name"
    a'.target = a.target ∧ a.command = some subscribe ∧ a'.command = some "to-view" ∧ "to-view" ∈ oneWayCommands ∧
      compile '$' a e = .ok ⟨e', "text", true⟩ ∧
      compile '$' a' (.behavior e subscribe []) = .ok ⟨.behavior e' subscribe [], "text", true⟩ ∧
      ∀ (s : Session) (b : BindingId) (x : Binding) (y : Bound),
        s.readAgain b { x with expression := .behavior e' subscribe [] } y = s.readAgain b { x with expression := e' } y := by
  intro a a' e e'
  have hi : compile '$' a e = .ok ⟨e', "text", true⟩ := by rfl
  have hi' : compile '$' a' (.behavior e subscribe []) = .ok ⟨.behavior e' subscribe [], "text", true⟩ := by rfl
  have hc : "to-view" ∈ oneWayCommands := by decide
  have htarget : a'.target = a.target := rfl
  have ha : a.command = some subscribe := rfl
  have ha' : a'.command = some "to-view" := rfl
  refine ⟨htarget, ha, ha', hc, hi, hi', fun s b x y => ?_⟩
  obtain ⟨_, herror, -⟩ | ⟨i, i', hok, hok', -, -, -, hsame⟩ :=
    compile_subscribe_behavior htarget ha ha' hc '$' e
  · rw [hi] at herror
    cases herror
  · obtain rfl := Except.ok.inj (hi.symm.trans hok)
    obtain rfl := Except.ok.inj (hi'.symm.trans hok')
    exact (hsame s b x y).2.1

end Instruction

end DataBinding
