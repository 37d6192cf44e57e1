import DataBinding.Session.Execute

/-!
# The answers of commands that decide

Most commands have one answer as soon as the names in them are known. Those here decide between several: a binding is
refused or made, an assignment is refused, carried out or failed. What each of their answers can be is said once, with
what is known of it, so a proof about all commands goes through the answers and opens none of these commands again.
-/

namespace DataBinding

/-- The binding of the system `i` to a property of `o` has been made just now. -/
structure Binding.IsMade (i : SystemId) (o : ObjectId) (x : Binding) : Prop where
  system : x.system = i
  target : x.target = o
  value : x.value = .undefined
  observations : x.observations = {}
  state : x.state = none
  failed : x.lastError = none

namespace Session

variable {s : Session} {a : Answer} {expression : HostExpr} {place : Place} {value : HostValue}

/-! ### Assignments that succeed -/

/-- An assignment finds a place and writes to it. -/
theorem exists_write_of_assign {i : SystemId} {flags : EvalFlags} {scope : Scope} {host : Option Scope} {e : Expr}
    {v : Value} {r : Reaction} (h : s.assign i flags scope host e v = .ok r) :
    ∃ t d, s.destination i flags scope host e v = (t, .ok d) ∧ r = t.write d.object d.name d.value := by
  unfold assign at h
  split at h
  next t d hd => exact ⟨t, d, hd, (Except.ok.inj h).symm⟩
  · cases h

/-- The source of a binding is assigned where the binding is bound. -/
theorem exists_assign_of_updateSource {x : Binding} {v : Value} {r : Reaction} (h : s.updateSource x v = .ok r) :
    ∃ y, x.state = some y ∧ s.assign x.system x.flags y.scope y.host x.expression v = .ok r := by
  unfold updateSource at h
  split at h
  · cases h
  next y hy =>
    split at h
    next hr =>
      obtain rfl := Except.ok.inj h
      exact ⟨y, hy, hr⟩
    · cases h

/-! ### Commands -/

/-- A binding under the name is refused, or it is made. -/
inductive MakeAnswer (s : Session) (name system target : String) : Answer → Prop
  | refused (e : BindError) : MakeAnswer s name system target { session := s, reply := .failed e }
  | made {i : SystemId} {y : System} {o : ObjectId} {x : Binding} (hi : s.system? system = some (i, y))
    (ho : s.named? .object target = some o) (hx : x.IsMade i o) : MakeAnswer s name system target (s.addBinding name x)

theorem answer_makeFromAttribute {name system attr target : String}
    (ha : s.answerMakeFromAttribute name system attr expression target = some a) : MakeAnswer s name system target a := by
  simp only [answerMakeFromAttribute] at ha
  obtain ⟨⟨i, y⟩, hi, ha⟩ := Option.bind_eq_some_iff.1 ha
  obtain ⟨o, ho, ha⟩ := Option.bind_eq_some_iff.1 ha
  cases expression with
  | error e =>
    obtain rfl := Option.some.inj ha
    exact .refused _
  | ok e =>
    dsimp only at ha
    split at ha
    · obtain rfl := Option.some.inj ha
      exact .refused _
    · split at ha
      · obtain rfl := Option.some.inj ha
        exact .refused _
      · obtain rfl := Option.some.inj ha
        exact .made hi ho ⟨rfl, rfl, rfl, rfl, rfl, rfl⟩

theorem answer_makeBinding {name system target property : String} {flags : EvalFlags}
    (ha : s.answerMakeBinding name system expression target property flags = some a) :
    MakeAnswer s name system target a := by
  simp only [answerMakeBinding] at ha
  obtain ⟨⟨i, y⟩, hi, ha⟩ := Option.bind_eq_some_iff.1 ha
  obtain ⟨o, ho, ha⟩ := Option.bind_eq_some_iff.1 ha
  cases expression with
  | error e =>
    obtain rfl := Option.some.inj ha
    exact .refused _
  | ok e =>
    obtain rfl := Option.some.inj ha
    exact .made hi ho ⟨rfl, rfl, rfl, rfl, rfl, rfl⟩

/-- An expression is refused, or evaluated on its own. -/
inductive EvaluateAnswer (s : Session) (place : Place) (options : EvalOptions) : Answer → Prop
  | refused (e : ValidationError) : EvaluateAnswer s place options { session := s, reply := .failed (.validation e) }
  | evaluated {i : SystemId} {y : System} {scope : Scope} {host : Option Scope} (hi : s.system? place.system = some (i, y))
    (hscope : s.scope? place.scope = some scope) (hhost : s.host? place.host = some host) (e : Expr) :
    EvaluateAnswer s place options (s.evaluateAlone i y place scope host options e)

theorem answer_evaluate {options : EvalOptions} (ha : s.answerEvaluate expression place options = some a) :
    EvaluateAnswer s place options a := by
  simp only [answerEvaluate] at ha
  obtain ⟨⟨i, y⟩, hi, ha⟩ := Option.bind_eq_some_iff.1 ha
  obtain ⟨scope, hscope, ha⟩ := Option.bind_eq_some_iff.1 ha
  obtain ⟨host, hhost, ha⟩ := Option.bind_eq_some_iff.1 ha
  cases expression with
  | error e =>
    obtain rfl := Option.some.inj ha
    exact .refused e
  | ok e =>
    obtain rfl := Option.some.inj ha
    exact .evaluated hi hscope hhost e

/-- An assignment is refused before the value is made, or it is carried out, or it fails. -/
inductive AssignAnswer (s : Session) (place : Place) (value : HostValue) : Answer → Prop
  | refused (e : ValidationError) : AssignAnswer s place value { session := s, reply := .failed (.validation e) }
  | accepted {i : SystemId} {scope : Scope} {host : Option Scope} {t : Session} {v : Value} {e : Expr} {r : Reaction}
    (hscope : s.scope? place.scope = some scope) (hhost : s.host? place.host = some host)
    (hv : s.valueOf? value = some (t, v)) (hr : t.assign i place.flags scope host e v = .ok r) :
    AssignAnswer s place value (r.answer .accepted)
  | failed {t : Session} {v : Value} (hv : s.valueOf? value = some (t, v)) (e : ExpressionError) :
    AssignAnswer s place value { session := t, reply := .notAssigned e }

theorem answer_assign (ha : s.answerAssign expression place value = some a) : AssignAnswer s place value a := by
  simp only [answerAssign] at ha
  obtain ⟨⟨i, y⟩, -, ha⟩ := Option.bind_eq_some_iff.1 ha
  obtain ⟨scope, hscope, ha⟩ := Option.bind_eq_some_iff.1 ha
  obtain ⟨host, hhost, ha⟩ := Option.bind_eq_some_iff.1 ha
  cases expression with
  | error e =>
    obtain rfl := Option.some.inj ha
    exact .refused e
  | ok e =>
    obtain ⟨⟨t, v⟩, hv, ha⟩ := Option.bind_eq_some_iff.1 ha
    dsimp only at ha
    split at ha
    next r hr =>
      obtain rfl := Option.some.inj ha
      exact .accepted hscope hhost hv hr
    next e _ =>
      obtain rfl := Option.some.inj ha
      exact .failed hv e

/-- The source of a binding takes the value, or it does not. -/
inductive UpdateAnswer (s : Session) (binding : String) (value : HostValue) : Answer → Prop
  | accepted {b : BindingId} {x : Binding} {t : Session} {v : Value} {r : Reaction}
    (hb : s.binding? binding = some (b, x)) (hv : s.valueOf? value = some (t, v)) (hr : t.updateSource x v = .ok r) :
    UpdateAnswer s binding value ((r.andThen [.keep b.ref]).answer .accepted)
  | failed {t : Session} {v : Value} (hv : s.valueOf? value = some (t, v)) (e : BindError) :
    UpdateAnswer s binding value { session := t, reply := .failed e }

theorem answer_updateSource {binding : String} (ha : s.answerUpdateSource binding value = some a) :
    UpdateAnswer s binding value a := by
  simp only [answerUpdateSource] at ha
  obtain ⟨⟨b, x⟩, hb, ha⟩ := Option.bind_eq_some_iff.1 ha
  obtain ⟨⟨t, v⟩, hv, ha⟩ := Option.bind_eq_some_iff.1 ha
  dsimp only at ha
  split at ha
  next r hr =>
    obtain rfl := Option.some.inj ha
    exact .accepted hb hv hr
  next e _ =>
    obtain rfl := Option.some.inj ha
    exact .failed hv e

/-- The binding is bound and held to the end, or it could not be evaluated. -/
inductive BindAnswer (s : Session) (binding scope : String) (host : Option String) : Answer → Prop
  | bound {b : BindingId} {x : Binding} {k : Scope} {k' : Option Scope} {r : Reaction}
    (hb : s.binding? binding = some (b, x)) (hscope : s.scope? scope = some k) (hhost : s.host? host = some k')
    (hr : s.bind b x { scope := k, host := k' } = (r, .ok ())) :
    BindAnswer s binding scope host ((r.andThen [.keep b.ref]).answer .accepted)
  | failed {b : BindingId} {x : Binding} {k : Scope} {k' : Option Scope} {r : Reaction} {e : BindError}
    (hb : s.binding? binding = some (b, x)) (hscope : s.scope? scope = some k) (hhost : s.host? host = some k')
    (hr : s.bind b x { scope := k, host := k' } = (r, .error e)) :
    BindAnswer s binding scope host (r.answer (.failed e))

theorem answer_bind {binding scope : String} {host : Option String} (ha : s.answerBind binding scope host = some a) :
    BindAnswer s binding scope host a := by
  simp only [answerBind] at ha
  obtain ⟨⟨b, x⟩, hb, ha⟩ := Option.bind_eq_some_iff.1 ha
  obtain ⟨k, hscope, ha⟩ := Option.bind_eq_some_iff.1 ha
  obtain ⟨k', hhost, ha⟩ := Option.bind_eq_some_iff.1 ha
  dsimp only at ha
  split at ha
  next r hr =>
    obtain rfl := Option.some.inj ha
    exact .bound hb hscope hhost hr
  next r e hr =>
    obtain rfl := Option.some.inj ha
    exact .failed hb hscope hhost hr

end Session

end DataBinding
