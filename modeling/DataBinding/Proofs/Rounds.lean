import DataBinding.Proofs.BoundWrites
import DataBinding.Proofs.Entering

/-!
# Rounds of reading

A binding is evaluated in a round of reading (`Round`): it evaluates its expression, enters what it has read into its
record, and then either writes what came out or gives up. A task that tells a bound binding of a change begins a round
(`toldRound?`), and so does a command that binds it to another scope (`bindRound?`); nothing else does
(`evaluation?_eq_round`). What an act with a round comes to is said by `act_of_toldRound` and `act_of_bindRound`.
-/

namespace DataBinding

/-- A round of reading: the session in which it begins, the binding as it was looked up, and the scopes in which its
expression is evaluated. -/
structure Round where
  session : Session
  id : BindingId
  binding : Binding
  bound : Bound

namespace Round

/-- The session after the evaluation, before anything is entered. -/
def evaluated (r : Round) : Session := ((r.session.nextRound r.id).evaluateBound r.binding r.bound).1

/-- What the evaluation reports that it has read, in order. -/
def reads (r : Round) : List Read := ((r.session.nextRound r.id).evaluateBound r.binding r.bound).2.1

def result (r : Round) : Except ExpressionError Value :=
  ((r.session.nextRound r.id).evaluateBound r.binding r.bound).2.2

/-- The session when all that was read has been entered. -/
def entered (r : Round) : Session := r.evaluated.observe r.id r.reads

/-- Whether the evaluation has read the source. -/
def HasRead (r : Round) (z : Source) : Prop := ∃ d ∈ r.reads, Session.sourceOf d = z

/-- What a command answers that binds the binding, when its expression has come to the result. -/
def answer (r : Round) : Answer :=
  let q := (Session.afterBind r.id r.binding r.result r.entered).1
  match r.result with
  | .ok _ => (q.andThen [.keep r.id.ref]).answer .accepted
  | .error e => q.answer (.failed (.expression e))

end Round

/-- The binding after it was unbound. -/
def Binding.unbound (x : Binding) : Binding :=
  if x.isBound then { x with state := none, observations := x.observations.cleared } else x

theorem Binding.request_unbound (x : Binding) : x.unbound.request = x.request := by
  unfold Binding.unbound
  split <;> rfl

theorem Binding.lastError_unbound (x : Binding) : x.unbound.lastError = x.lastError := by
  unfold Binding.unbound
  split <;> rfl

/-- The binding after a round of which it was told, when all is entered and has come to the result. -/
def Binding.refreshed (x : Binding) : Except ExpressionError Value → Binding
  | .ok v => { x with observations := x.observations.fresh, lastError := none, value := v }
  | .error e => { x with lastError := some (.expression e) }

/-- The binding after the round for which it was bound, when all is entered and has come to the result. -/
def Binding.rebound (x : Binding) : Except ExpressionError Value → Binding
  | .ok v => { x with observations := x.observations.fresh, value := v }
  | .error _ => { x with state := none, observations := x.observations.cleared }

namespace Session

variable {s t : Session} {a : Act} {as : List Act} {b : BindingId} {d : Command} {r : Round} {x z : Binding} {y : Bound}

/-- The round that a binding begins which is told of a change, if it is bound. -/
def refreshRound? (s : Session) (b : BindingId) : Option Round := do
  let x ← s.bindings.get? b
  let y ← x.state
  return { session := s, id := b, binding := x, bound := y }

/-- The round that a binding begins which an act tells of a change. -/
def toldRound? (s : Session) (a : Act) : Option Round :=
  match a, s.pending with
  | .step, .notify w new previous (.binding b :: ls) :: rest =>
    ({ s with pending := .notify w new previous ls :: rest } : Session).refreshRound? b
  | _, _ => none

/-- The round that a binding begins which a command binds. -/
def bindRound? (s : Session) : Command → Option Round
  | .bind binding scope host => do
    let (b, x) ← s.binding? binding
    let scope ← s.scope? scope
    let host ← s.host? host
    if x.state.any fun z => z.scope.id = scope.id then none
    else return { session := s.boundTo b { scope, host }, id := b, binding := x, bound := { scope, host } }
  | _ => none

/-- The round that an act begins. -/
def round? (s : Session) (a : Act) : Option Round :=
  (s.toldRound? a).or ((s.carriedOut? a).bind fun x => x.1.bindRound? x.2)

theorem toldRound?_eq_some (h : s.toldRound? a = some r) :
    ∃ w new previous ls rest, a = .step ∧ s.pending = .notify w new previous (.binding r.id :: ls) :: rest ∧
      r.session = { s with pending := .notify w new previous ls :: rest } ∧ s.bindings.get? r.id = some r.binding ∧
      r.binding.state = some r.bound := by
  unfold toldRound? at h
  split at h
  next w new previous b ls rest hp =>
    obtain ⟨x, hx, h⟩ := Option.bind_eq_some_iff.1 h
    obtain ⟨y, hy, h⟩ := Option.bind_eq_some_iff.1 h
    obtain rfl := Option.some.inj h
    exact ⟨w, new, previous, ls, rest, rfl, hp, rfl, hx, hy⟩
  · cases h

theorem bindRound?_eq_some (h : t.bindRound? d = some r) :
    ∃ binding scope host, d = .bind binding scope host ∧ t.binding? binding = some (r.id, r.binding) ∧
      t.scope? scope = some r.bound.scope ∧ t.host? host = some r.bound.host ∧
      (r.binding.state.any fun w => w.scope.id = r.bound.scope.id) = false ∧ r.session = t.boundTo r.id r.bound := by
  cases d with
  | bind binding scope host =>
    obtain ⟨⟨b, x⟩, hb, h⟩ := Option.bind_eq_some_iff.1 h
    obtain ⟨y, hy, h⟩ := Option.bind_eq_some_iff.1 h
    obtain ⟨host', hhost, h⟩ := Option.bind_eq_some_iff.1 h
    split at h
    · cases h
    next hnew =>
      obtain rfl := Option.some.inj h
      exact ⟨binding, scope, host, rfl, hb, hy, hhost, by simpa using hnew, rfl⟩
  | _ => cases h

theorem toldRound?_eq_none (h : s.carriedOut? a = some (t, d)) : s.toldRound? a = none := by
  obtain ⟨rfl, rfl⟩ | ⟨label, ds, rest, rfl, hp, rfl⟩ := carriedOut?_eq_some h
  · rfl
  · simp only [toldRound?, hp]

theorem round?_eq_some (h : s.round? a = some r) :
    s.toldRound? a = some r ∨ ∃ t d, s.carriedOut? a = some (t, d) ∧ t.bindRound? d = some r := by
  rcases Option.or_eq_some_iff.1 h with h | ⟨-, h⟩
  · exact .inl h
  · obtain ⟨⟨t, d⟩, hc, hd⟩ := Option.bind_eq_some_iff.1 h
    exact .inr ⟨t, d, hc, hd⟩

theorem round?_of_carriedOut (h : s.carriedOut? a = some (t, d)) : s.round? a = t.bindRound? d := by
  simp [round?, toldRound?_eq_none h, h]

/-! ### Rounds and evaluations -/

theorem refreshed?_eq_refreshRound (s : Session) (b : BindingId) :
    s.refreshed? b = (s.refreshRound? b).map Round.result := by
  cases hx : s.bindings.get? b with
  | none => simp [refreshed?, refreshRound?, hx]
  | some x =>
    cases hy : x.state with
    | none => simp [refreshed?, refreshRound?, hx, hy]
    | some y =>
      simp [refreshed?, refreshRound?, hx, hy]
      rfl

theorem id_of_refreshRound? (h : s.refreshRound? b = some r) : r.id = b := by
  obtain ⟨x, -, h⟩ := Option.bind_eq_some_iff.1 h
  obtain ⟨y, -, h⟩ := Option.bind_eq_some_iff.1 h
  obtain rfl := Option.some.inj h
  rfl

theorem bound?_eq_bindRound (t : Session) (d : Command) : t.bound? d = (t.bindRound? d).map fun r => (r.id, r.result) := by
  cases d with
  | bind binding scope host =>
    cases hb : t.binding? binding with
    | none => simp [bound?, bindRound?, hb]
    | some e =>
      cases hy : t.scope? scope with
      | none => simp [bound?, bindRound?, hb, hy]
      | some y =>
        cases hhost : t.host? host with
        | none => simp [bound?, bindRound?, hb, hy, hhost]
        | some host' =>
          simp only [bound?, bindRound?, hb, hy, hhost, Option.bind_eq_bind, Option.bind_some]
          split <;> rfl
  | _ => rfl

theorem toldRound?_notify {w : Source} {new previous : Value} {ls : List Listener} {rest : List Task}
    (hp : s.pending = .notify w new previous (.binding b :: ls) :: rest) :
    s.toldRound? .step = ({ s with pending := .notify w new previous ls :: rest } : Session).refreshRound? b := by
  simp only [toldRound?, hp]

theorem toldRound?_of_state {w : Source} {new previous : Value} {ls : List Listener} {rest : List Task}
    (hp : s.pending = .notify w new previous (.binding b :: ls) :: rest) (hx : s.bindings.get? b = some x)
    (hy : x.state = some y) :
    s.toldRound? .step = some ⟨{ s with pending := .notify w new previous ls :: rest }, b, x, y⟩ := by
  rw [toldRound?_notify hp]
  simp [refreshRound?, hx, hy]

/-- An act evaluates a binding if it begins a round, and to the result of the round. -/
theorem evaluation?_eq_round (s : Session) (a : Act) : s.evaluation? a = (s.round? a).map fun r => (r.id, r.result) := by
  by_cases htold : ∃ w new previous b ls rest, a = .step ∧ s.pending = .notify w new previous (.binding b :: ls) :: rest
  · obtain ⟨w, new, previous, b, ls, rest, rfl, hp⟩ := htold
    have hround : s.round? .step = s.toldRound? .step := by simp [round?, carriedOut?, hp]
    rw [hround, toldRound?_notify hp, evaluation?_notify hp, refreshed?_eq_refreshRound]
    cases hr : ({ s with pending := .notify w new previous ls :: rest } : Session).refreshRound? b with
    | none => rfl
    | some r => simp [id_of_refreshRound? hr]
  · have heval : s.evaluation? a = (s.carriedOut? a).bind fun x => x.1.bound? x.2 := by
      unfold evaluation?
      split
      next w new previous b ls rest hp => exact absurd ⟨w, new, previous, b, ls, rest, rfl, hp⟩ htold
      · rfl
    have hnone : s.toldRound? a = none := by
      unfold toldRound?
      split
      next w new previous b ls rest hp => exact absurd ⟨w, new, previous, b, ls, rest, rfl, hp⟩ htold
      · rfl
    rw [heval, round?, hnone, Option.none_or, Option.map_bind]
    simp only [bound?_eq_bindRound, Function.comp_def]

/-! ### What an act with a round comes to -/

theorem act_of_toldRound (h : s.toldRound? a = some r) :
    s.act a = (afterRefresh r.id r.binding r.result r.entered).session.push
      ((afterRefresh r.id r.binding r.result r.entered).tasks ++ [.keep r.id.ref]) := by
  obtain ⟨w, new, previous, ls, rest, rfl, hp, hsession, hx, hy⟩ := toldRound?_eq_some h
  have hrefresh : r.session.refresh r.id = afterRefresh r.id r.binding r.result r.entered := by
    refine refresh_eq ?_ hy
    rw [hsession]
    exact hx
  rw [act, step_of_notify hp hx, ← hsession, hrefresh]

/-- A command that has a binding begin a round answers with what the round comes to. -/
theorem execute_of_bindRound (h : t.bindRound? d = some r) : t.execute d = r.answer := by
  obtain ⟨binding, scope, host, rfl, hb, hy, hhost, hnew, hsession⟩ := bindRound?_eq_some h
  have hbind : t.bind r.id r.binding r.bound = afterBind r.id r.binding r.result r.entered := by
    rw [bind_eq hnew, Round.entered, Round.evaluated, Round.reads, Round.result, hsession]
    rfl
  cases hresult : r.result with
  | ok v =>
    rw [hresult] at hbind
    simp [execute, answer?, answerBind, hb, hy, hhost, hbind, Round.answer, hresult, afterBind]
  | error e =>
    rw [hresult] at hbind
    simp [execute, answer?, answerBind, hb, hy, hhost, hbind, Round.answer, hresult, afterBind]

/-- A command that binds names something that is not known, or finds the binding bound to the scope and leaves it so,
whatever the host, or has it begin a round. -/
theorem execute_bind (t : Session) (binding scope : String) (host : Option String) :
    t.execute (.bind binding scope host) = { session := t, reply := .unknown } ∨
      (∃ (b : BindingId) (x : Binding) (y : Bound), t.binding? binding = some (b, x) ∧
        t.scope? scope = some y.scope ∧ t.host? host = some y.host ∧
        (x.state.any fun z => z.scope.id = y.scope.id) = true ∧ t.execute (.bind binding scope host) =
          { session := t, reply := .accepted, tasks := [.keep b.ref] }) ∨
      ∃ r, t.bindRound? (.bind binding scope host) = some r := by
  cases hb : t.binding? binding with
  | none => exact .inl (by simp [execute, answer?, answerBind, hb])
  | some p =>
    obtain ⟨b, x⟩ := p
    cases hy : t.scope? scope with
    | none => exact .inl (by simp [execute, answer?, answerBind, hb, hy])
    | some y =>
      cases hhost : t.host? host with
      | none => exact .inl (by simp [execute, answer?, answerBind, hb, hy, hhost])
      | some host' =>
        right
        cases hsame : x.state.any fun z => z.scope.id = y.id with
        | true =>
          have hbind := bind_of_bound (s := t) (b := b) (y := { scope := y, host := host' }) hsame
          refine .inl ⟨b, x, { scope := y, host := host' }, rfl, rfl, rfl, hsame, ?_⟩
          simp [execute, answer?, answerBind, hb, hy, hhost, hbind, Reaction.answer, Reaction.andThen]
        | false => exact .inr (Option.isSome_iff_exists.1 (by simp [bindRound?, hb, hy, hhost, hsame]))

theorem act_of_bindRound (hc : s.carriedOut? a = some (t, d)) (h : t.bindRound? d = some r) :
    ∃ us, s.act a = (afterBind r.id r.binding r.result r.entered).1.session.push us := by
  obtain ⟨ts, us, -, hact⟩ := eq_of_carriedOut? hc
  refine ⟨us, ?_⟩
  rw [hact, execute_of_bindRound h, Round.answer]
  cases r.result <;> rfl

theorem get?_afterRefresh {w : Binding} (hw : t.bindings.get? b = some w) (x : Binding)
    (result : Except ExpressionError Value) :
    (afterRefresh b x result t).session.bindings.get? b = some (w.refreshed result) := by
  cases result with
  | ok v =>
    simp only [afterRefresh, writeTarget, bindings_write, get?_modifyBinding, if_true, get?_clearStale hw, Option.map_some,
      Binding.refreshed]
  | error e => simp only [afterRefresh, get?_modifyBinding, if_true, hw, Option.map_some, Binding.refreshed]

theorem get?_afterBind {w : Binding} (hw : t.bindings.get? b = some w) (x : Binding)
    (result : Except ExpressionError Value) :
    (afterBind b x result t).1.session.bindings.get? b = some (w.rebound result) := by
  cases result with
  | ok v =>
    simp only [afterBind, writeTarget, bindings_write, get?_modifyBinding, if_true, get?_clearStale hw, Option.map_some,
      Binding.rebound]
  | error e =>
    have hnone : (t.modifyBinding b fun x => { x with state := none }).bindings.get? b = some { w with state := none } := by
      rw [get?_modifyBinding, if_pos rfl, hw, Option.map_some]
    exact get?_clearObservations hnone

/-! ### The session in which a round begins -/

theorem get?_unbind_self (hx : s.bindings.get? b = some x) : (s.unbind b).bindings.get? b = some x.unbound := by
  unfold unbind Binding.unbound
  simp only [hx]
  split
  · have hstate : (s.modifyBinding b fun x => { x with state := none }).bindings.get? b =
        some { x with state := none } := by
      rw [get?_modifyBinding, if_pos rfl, hx, Option.map_some]
    exact get?_clearObservations hstate
  · exact hx

theorem get?_boundTo (hx : s.bindings.get? b = some x) (y : Bound) :
    (s.boundTo b y).bindings.get? b = some { x.unbound with state := some y } := by
  rw [boundTo, get?_modifyBinding, if_pos rfl, get?_unbind_self hx, Option.map_some]

/-- A round begins in a session in order, with a binding that is bound and asks for what was looked up. -/
structure Ready (r : Round) (x : Binding) : Prop where
  sound : Sound (· ∈ r.session.held) r.session
  dated : Dated r.session
  get? : r.session.bindings.get? r.id = some x
  request : x.request = r.binding.request
  state : x.state = some r.bound

theorem ready_of_told (h : Sound (· ∈ s.held) s) (hd : Dated s) (hr : s.toldRound? a = some r) : Ready r r.binding := by
  obtain ⟨w, new, previous, ls, rest, rfl, hp, hsession, hx, hy⟩ := toldRound?_eq_some hr
  have ht : Sound (· ∈ ({ s with pending := [.notify w new previous ls] ++ rest } : Session).held) _ :=
    h.take hp [.notify w new previous ls] (by simp [sharedInTask])
  constructor
  case sound => rw [hsession]; exact ht
  case dated => rw [hsession]; exact hd
  case get? => rw [hsession]; exact hx
  case request => rfl
  case state => exact hy

theorem ready_of_bind (h : Sound (· ∈ t.held) t) (hd : Dated t) (hr : t.bindRound? d = some r) :
    Ready r { r.binding.unbound with state := some r.bound } := by
  obtain ⟨binding, scope, host, rfl, hb, hy, hhost, hnew, hsession⟩ := bindRound?_eq_some hr
  have hm : Moves Silent (t.bare, t) (t.bare, t.boundTo r.id r.bound) :=
    Moves.boundTo h r.id (h.outside.scope hy) (h.outside.host hhost)
  constructor
  case sound => rw [hsession]; exact (h.moves hm).narrow
  case dated => rw [hsession]; exact hd.moves hm
  case get? => rw [hsession]; exact get?_boundTo (get?_of_binding? hb) _
  case request => exact r.binding.request_unbound
  case state => rfl

/-- An evaluation leaves all objects, observers and registrations as they were, and what it has read is there. -/
theorem Ready.spares (h : Ready r x) : r.session.store.Spares r.evaluated.store :=
  (evaluatesTo_evaluateBound (h.sound.tidy_nextRound h.dated r.id) r.binding r.bound).spares

theorem Ready.hasRead (h : Ready r x) : HasRead r.binding.system r.reads r.evaluated :=
  h.sound.hasRead_nextRound h.get? h.state r.binding

/-- What is entered goes into the record of the binding. -/
theorem Ready.enters (h : Ready r x) :
    ∃ o added, r.entered.bindings.get? r.id = some { x with observations := o } ∧
      Enters r.id r.reads r.evaluated.store r.entered.store x.observations.nextRound o added :=
  enters_observe h.hasRead.readable (get?_evaluateBound h.get? r.binding r.bound)

/-! ### What becomes of the binding -/

theorem get?_act_of_toldRound (hr : s.toldRound? a = some r) (hx : r.entered.bindings.get? r.id = some x) :
    (s.act a).bindings.get? r.id = some (x.refreshed r.result) := by
  rw [act_of_toldRound hr]
  exact get?_afterRefresh hx _ _

theorem get?_act_of_bindRound (hc : s.carriedOut? a = some (t, d)) (hr : t.bindRound? d = some r)
    (hx : r.entered.bindings.get? r.id = some x) : (s.act a).bindings.get? r.id = some (x.rebound r.result) := by
  obtain ⟨us, hact⟩ := act_of_bindRound hc hr
  rw [hact]
  exact get?_afterBind hx _ _

/-- A command that has a binding begin no round leaves it as it is or unbinds it. -/
theorem get?_execute_of_none (hd : t.turnedBy? d = some b) (hx : t.bindings.get? b = some x)
    (hnone : t.bindRound? d = none) : (t.execute d).session.bindings.get? b = some x ∨
      (t.execute d).session.bindings.get? b = some x.unbound := by
  cases d with
  | bind binding scope host =>
    left
    obtain hunknown | ⟨b', x', y', -, -, -, -, hsame⟩ | ⟨r, hr⟩ := execute_bind t binding scope host
    · rw [hunknown]
      exact hx
    · rw [hsame]
      exact hx
    · cases hnone.symm.trans hr
  | unbind binding =>
    obtain ⟨⟨b, w⟩, hb, rfl⟩ := Option.map_eq_some_iff.1 hd
    right
    simpa [execute, answer?, answerUnbind, hb] using get?_unbind_self hx
  | _ => cases hd

/-- A binding that is told of a change and begins no round stays as it is. -/
theorem get?_act_of_not_told {w : Source} {new previous : Value} {ls : List Listener} {rest : List Task}
    (hp : s.pending = .notify w new previous (.binding b :: ls) :: rest) (hx : s.bindings.get? b = some x)
    (hnot : ∀ r, s.round? .step = some r → r.id ≠ b) : (s.act .step).bindings.get? b = some x := by
  have hstate : x.state = none := by
    cases hy : x.state with
    | none => rfl
    | some y => exact absurd rfl (hnot _ (by rw [round?, toldRound?_of_state hp hx hy, Option.some_or]))
  have hnone : ({ s with pending := .notify w new previous ls :: rest } : Session).refreshed? b = none := by
    simp [refreshed?, hx, hstate]
  rw [act, step_of_notify hp hx, refresh_of_none hnone]
  exact hx

/-- A binding that begins no round stays as it is or is unbound, or it is new. -/
theorem get?_of_no_round (h : Sound (· ∈ s.held) s) (hnot : ∀ r, s.round? a = some r → r.id ≠ b)
    (hz : (s.act a).bindings.get? b = some z) :
    (∃ x, s.bindings.get? b = some x ∧ (z = x ∨ z = x.unbound)) ∨
      s.store.fresh ≤ b.number ∧ z.isBound = false ∧ z.observations = {} ∧ z.lastError = none := by
  by_cases hturn : s.turned? a = some b
  · left
    cases hx : s.bindings.get? b with
    | none => exact absurd (hz.symm.trans (absent_act hturn hx)) nofun
    | some x =>
      refine ⟨x, rfl, ?_⟩
      obtain ⟨w, new, previous, ls, rest, rfl, hp⟩ | ⟨t, d, hc, hd⟩ := turned?_eq_some hturn
      · exact .inl (Option.some.inj (hz.symm.trans (get?_act_of_not_told hp hx hnot)))
      · have hnone : t.bindRound? d = none := by
          refine Option.eq_none_iff_forall_ne_some.2 fun r hr => hnot r ((round?_of_carriedOut hc).trans hr) ?_
          obtain ⟨binding, scope, host, rfl, hb, -⟩ := bindRound?_eq_some hr
          rw [turnedBy?, hb] at hd
          exact Option.some.inj hd
        obtain ⟨ts, us, rfl, hact⟩ := eq_of_carriedOut? hc
        rw [hact] at hz
        have hx' : ({ s with pending := ts } : Session).bindings.get? b = some x := hx
        exact (get?_execute_of_none hd hx' hnone).imp (fun h => Option.some.inj (hz.symm.trans h)) fun h =>
          Option.some.inj (hz.symm.trans h)
  · exact (untouched_act h hturn z hz).imp_left fun hx => ⟨z, hx, .inl rfl⟩

/-! ### How many rounds a binding has had -/

/-- The number of rounds that a binding has begun in a run. -/
def rounds (as : List Act) (b : BindingId) : Nat := ((initial.evaluations as).filter fun e => e.1 = b).length

theorem rounds_of_round (h : (initial.play as).round? a = some r) : rounds (as ++ [a]) r.id = rounds as r.id + 1 := by
  have heval : (initial.play as).evaluation? a = some (r.id, r.result) := by rw [evaluation?_eq_round, h]; rfl
  simp [rounds, evaluations_concat, List.filter_append, heval]

theorem rounds_of_ne (h : ∀ r, (initial.play as).round? a = some r → r.id ≠ b) : rounds (as ++ [a]) b = rounds as b := by
  rw [rounds, rounds, evaluations_concat, evaluation?_eq_round, List.filter_append, List.length_append]
  cases hr : (initial.play as).round? a with
  | none => rfl
  | some r => simp [h r hr]

/-- Only bindings that there are begin rounds. -/
theorem old_of_evaluations (as : List Act) :
    ∀ e ∈ initial.evaluations as, e.1.number < (initial.play as).store.fresh := by
  induction as using List.reverseRecOn with
  | nil => exact fun e he => by cases he
  | append_singleton as a ih =>
    have hfresh := fresh_le_act (sound_initial.play as) a
    intro e he
    rw [play_append]
    refine Nat.lt_of_lt_of_le ?_ hfresh
    rw [evaluations_concat] at he
    rcases List.mem_append.1 he with he | he
    · exact ih e he
    · obtain ⟨-, x, hx⟩ := turned?_of_evaluation (Option.mem_toList.1 he)
      exact old_bindings_play as e.1 x hx

/-- A binding that is still to be made has had no round. -/
theorem rounds_of_new (h : (initial.play as).store.fresh ≤ b.number) : rounds as b = 0 := by
  rw [rounds, List.length_eq_zero_iff, List.filter_eq_nil_iff]
  intro e he hb
  obtain rfl : e.1 = b := by simpa using hb
  exact absurd (old_of_evaluations as e he) (Nat.not_lt.2 h)

end Session

end DataBinding
