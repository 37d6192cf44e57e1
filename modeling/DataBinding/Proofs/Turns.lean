import DataBinding.Proofs.Heeds.Execute
import DataBinding.Proofs.Uninvolved

/-!
# Turns of bindings

A binding has its turn when a command binds or unbinds it and when a task tells it of a change. Nothing else that a
session does changes it, but that it goes when nothing holds it any more (`untouched_act`). What it is after its turn
depends on what it evaluates to: it writes when that is a value, and it observes something only while it is bound
(`settles_bind`, `settles_refresh`).
-/

namespace DataBinding

namespace Session

variable {g g' : Ghost} {s s' t : Session} {a : Act} {b c : BindingId} {x z : Binding} {y : Bound}

/-! ### What leaves all bindings alone -/

theorem bindings_receive (e : StreamEvent) (k : Sink) : (s.receive e k).session.bindings = s.bindings := by
  have hnote : ∀ label, (s.noteEvent label e).bindings = s.bindings := by
    intro label
    cases e <;> rfl
  unfold receive
  cases k with
  | observer o =>
    dsimp only
    split
    · rfl
    · split <;> rfl
  | handler k =>
    dsimp only
    split
    · rfl
    · split <;> exact hnote _

theorem bindings_tell_recorder (i : RecorderId) (new previous : Value) :
    (s.tell new previous (.recorder i)).session.bindings = s.bindings := by
  unfold tell
  dsimp only
  split
  · rfl
  · split <;> rfl

/-- Commands other than those that give bindings their turn, make them or let them go leave all of them alone. -/
theorem bindings_answer (h : Sound g.hand s) {d : Command} (hd : d.turns = false) :
    Ensures (·.session.bindings = s.bindings) (s.answer? d) := by
  cases hsinks : d.isForSinks with
  | false => exact fun a ha => (uninvolved_answer h hsinks hd a ha).bindings
  | true =>
    cases d with
    | subscribe => exact .bind fun _ _ => .some rfl
    | unsubscribe => exact .bind fun _ _ => .bind fun _ _ => .some (close_bindings ..)
    | drop what name =>
      have hwhat : what ≠ .binding := by
        rintro rfl
        cases hd
      simp only [answer?, answerDrop]
      split
      · exact .some rfl
      · exact .some (bindings_letGo _ hwhat)
    | _ => cases hsinks

/-! ### What becomes of a binding that has its turn -/

/-- The binding `x` has become `z` in a turn in which it evaluated to `r?`, if it was evaluated. -/
structure Settles (r? : Option (Except ExpressionError Value)) (x z : Binding) : Prop where
  slot : z.slot = x.slot
  /-- It has written what it evaluates to, and is bound. -/
  wrote {v : Value} : r? = some (.ok v) → z.value = v ∧ z.isBound = true
  /-- It has written nothing when it does not come to a value. -/
  kept : (∀ v, r? ≠ some (.ok v)) → z.value = x.value
  /-- It is not bound without being evaluated. -/
  unbound : r? = none → x.isBound = false → z.isBound = false
  /-- If it is not bound, then it observes nothing, unless it did so before. -/
  idle : z.isBound = false → z.observations.entries = [] ∨ x.isBound = false ∧ z.observations = x.observations

namespace Settles

theorem unevaluated (hslot : z.slot = x.slot) (hvalue : z.value = x.value)
    (hbound : x.isBound = false → z.isBound = false)
    (hidle : z.isBound = false → z.observations.entries = [] ∨ x.isBound = false ∧ z.observations = x.observations) :
    Settles none x z where
  slot := hslot
  wrote h := by cases h
  kept _ := hvalue
  unbound _ := hbound
  idle := hidle

theorem failed {e : ExpressionError} (hslot : z.slot = x.slot) (hvalue : z.value = x.value)
    (hidle : z.isBound = false → z.observations.entries = [] ∨ x.isBound = false ∧ z.observations = x.observations) :
    Settles (some (.error e)) x z where
  slot := hslot
  wrote h := by cases h
  kept _ := hvalue
  unbound h := by cases h
  idle := hidle

theorem succeeded {v : Value} (hslot : z.slot = x.slot) (hvalue : z.value = v) (hbound : z.isBound = true) :
    Settles (some (.ok v)) x z where
  slot := hslot
  wrote h := by
    cases h
    exact ⟨hvalue, hbound⟩
  kept hnot := absurd rfl (hnot v)
  unbound h := by cases h
  idle h := by
    rw [hbound] at h
    cases h

theorem refl (x : Binding) : Settles none x x := .unevaluated rfl rfl id fun h => .inr ⟨h, rfl⟩

end Settles

/-- Evaluating a binding changes its record only. -/
theorem get?_readAgain_self (hx : s.bindings.get? b = some x) (w : Binding) (y : Bound) :
    ∃ r, (s.readAgain b w y).1.bindings.get? b = some { x with observations := r } := by
  have hobserve : ∀ {t : Session} {r : Observations} (reads : List Read),
      t.bindings.get? b = some { x with observations := r } →
      ∃ r', (t.observe b reads).bindings.get? b = some { x with observations := r' } := by
    intro t r reads ht
    induction reads generalizing t r with
    | nil => exact ⟨r, ht⟩
    | cons d reads ih =>
      rw [observe_cons ht]
      have hget := get?_observeOne t b { x with observations := r } d b
      rw [if_pos rfl] at hget
      exact ih hget
  exact hobserve _ (get?_evaluateBound hx w y)

theorem get?_unbind (hx : s.bindings.get? b = some x) :
    ∃ z, (s.unbind b).bindings.get? b = some z ∧ Settles none x z ∧ z.isBound = false := by
  unfold unbind
  simp only [hx]
  split
  next hbound =>
    have hstate : (s.modifyBinding b fun x => { x with state := none }).bindings.get? b =
        some { x with state := none } := by
      rw [get?_modifyBinding, if_pos rfl, hx, Option.map_some]
    exact ⟨_, get?_clearObservations hstate, .unevaluated rfl rfl (fun _ => rfl) fun _ => .inl rfl, rfl⟩
  next hbound => exact ⟨x, hx, .refl x, by simpa using hbound⟩

/-- A binding that is told of a change writes if it is bound and comes to a value. -/
theorem settles_refresh (hx : s.bindings.get? b = some x) :
    ∃ z, (s.refresh b).session.bindings.get? b = some z ∧ Settles (s.refreshed? b) x z := by
  cases hy : x.state with
  | none =>
    have hnone : s.refreshed? b = none := by simp [refreshed?, hx, hy]
    rw [hnone, refresh_of_none hnone]
    exact ⟨x, hx, .refl x⟩
  | some y =>
    have hbound : x.isBound = true := by rw [Binding.isBound, hy, Option.isSome_some]
    have hresult : s.refreshed? b = some (s.readAgain b x y).2 := by simp [refreshed?, hx, hy]
    obtain ⟨r, hr⟩ := get?_readAgain_self hx x y
    rw [hresult, refresh_eq hx hy]
    cases he : (s.readAgain b x y).2 with
    | ok v =>
      refine ⟨{ x with observations := r.fresh, lastError := none, value := v }, ?_, .succeeded rfl rfl hbound⟩
      simp only [afterRefresh, writeTarget, bindings_write, get?_modifyBinding, if_true, get?_clearStale hr,
        Option.map_some]
    | error e =>
      refine ⟨{ x with observations := r, lastError := some (.expression e) }, ?_, .failed rfl rfl fun hz => ?_⟩
      · simp only [afterRefresh, get?_modifyBinding, if_true, hr, Option.map_some]
      · exact absurd (hbound.symm.trans hz) (by simp)

/-- A binding that is bound writes if it comes to a value, and is not bound if it does not. -/
theorem settles_bind (hx : s.bindings.get? b = some x) (y : Bound) :
    ∃ z, (s.bind b x y).1.session.bindings.get? b = some z ∧
      Settles (if x.state.any fun w => w.scope.id = y.scope.id then none
        else some ((s.boundTo b y).readAgain b x y).2) x z := by
  cases hnew : x.state.any fun w => w.scope.id = y.scope.id with
  | true =>
    rw [bind_of_bound hnew]
    exact ⟨x, hx, .refl x⟩
  | false =>
    obtain ⟨w, hw, hsettles, -⟩ := get?_unbind hx
    have hslot : w.slot = x.slot := hsettles.slot
    have hvalue : w.value = x.value := hsettles.kept fun _ h => by cases h
    have hstate : (s.boundTo b y).bindings.get? b = some { w with state := some y } := by
      rw [boundTo, get?_modifyBinding, if_pos rfl, hw, Option.map_some]
    obtain ⟨r, hr⟩ := get?_readAgain_self hstate x y
    cases he : ((s.boundTo b y).readAgain b x y).2 with
    | ok v =>
      rw [bind_of_ok hnew (Prod.ext rfl he)]
      refine ⟨{ w with state := some y, observations := r.fresh, value := v }, ?_, .succeeded hslot rfl rfl⟩
      simp only [writeTarget, bindings_write, get?_modifyBinding, if_true, get?_clearStale hr, Option.map_some]
    | error e =>
      rw [bind_of_error hnew (Prod.ext rfl he)]
      have hnone : (((s.boundTo b y).readAgain b x y).1.modifyBinding b fun x =>
          { x with state := none }).bindings.get? b = some { w with state := none, observations := r } := by
        rw [get?_modifyBinding, if_pos rfl, hr, Option.map_some]
      exact ⟨_, get?_clearObservations hnone, .failed hslot hvalue fun _ => .inl rfl⟩

/-! ### What becomes of the others -/

theorem get?_modifyBinding_of_ne (h : b ≠ c) (s : Session) (f : Binding → Binding) :
    (s.modifyBinding b f).bindings.get? c = s.bindings.get? c := by
  rw [get?_modifyBinding, if_neg h]

theorem get?_readAgain_of_ne (h : b ≠ c) (s : Session) (x : Binding) (y : Bound) :
    (s.readAgain b x y).1.bindings.get? c = s.bindings.get? c := by
  have hobserve : ∀ (t : Session) (reads : List Read), (t.observe b reads).bindings.get? c = t.bindings.get? c := by
    intro t reads
    induction reads generalizing t with
    | nil => rfl
    | cons d reads ih =>
      cases hx : t.bindings.get? b with
      | none =>
        simp only [observe, List.foldl_cons, hx]
        exact ih t
      | some x =>
        rw [observe_cons hx, ih, get?_observeOne, if_neg h]
  rw [readAgain_eq, hobserve, evaluateBound, bindings_evaluate, nextRound, get?_modifyBinding_of_ne h]

theorem get?_clearStale_of_ne (h : b ≠ c) (s : Session) : (s.clearStale b).bindings.get? c = s.bindings.get? c := by
  unfold clearStale
  split
  · rfl
  · rw [bindings_releaseAll, get?_modifyBinding_of_ne h]

theorem get?_clearObservations_of_ne (h : b ≠ c) (s : Session) :
    (s.clearObservations b).bindings.get? c = s.bindings.get? c := by
  unfold clearObservations
  split
  · rfl
  · rw [bindings_releaseAll, get?_modifyBinding_of_ne h]

theorem get?_unbind_of_ne (h : b ≠ c) (s : Session) : (s.unbind b).bindings.get? c = s.bindings.get? c := by
  unfold unbind
  split
  · rfl
  · split
    · rw [get?_clearObservations_of_ne h, get?_modifyBinding_of_ne h]
    · rfl

theorem get?_writeTarget_of_ne (h : b ≠ c) (s : Session) (x : Binding) (v : Value) :
    (s.writeTarget b x v).session.bindings.get? c = s.bindings.get? c := by
  rw [writeTarget, bindings_write, get?_modifyBinding_of_ne h]

theorem get?_refresh_of_ne (h : b ≠ c) (s : Session) : (s.refresh b).session.bindings.get? c = s.bindings.get? c := by
  cases hx : s.bindings.get? b with
  | none => simp only [refresh, hx]
  | some x =>
    cases hy : x.state with
    | none => simp only [refresh, hx, hy]
    | some y =>
      rw [refresh_eq hx hy, ← get?_readAgain_of_ne h s x y]
      cases (s.readAgain b x y).2 with
      | ok v => rw [afterRefresh, get?_writeTarget_of_ne h, get?_modifyBinding_of_ne h, get?_clearStale_of_ne h]
      | error e => rw [afterRefresh, get?_modifyBinding_of_ne h]

theorem get?_bind_of_ne (h : b ≠ c) (s : Session) (x : Binding) (y : Bound) :
    (s.bind b x y).1.session.bindings.get? c = s.bindings.get? c := by
  cases hnew : x.state.any fun w => w.scope.id = y.scope.id with
  | true => rw [bind_of_bound hnew]
  | false =>
    have hread : ((s.boundTo b y).readAgain b x y).1.bindings.get? c = s.bindings.get? c := by
      rw [get?_readAgain_of_ne h, boundTo, get?_modifyBinding_of_ne h, get?_unbind_of_ne h]
    cases he : ((s.boundTo b y).readAgain b x y).2 with
    | ok v => rw [bind_of_ok hnew (Prod.ext rfl he), get?_writeTarget_of_ne h, get?_clearStale_of_ne h, hread]
    | error e =>
      rw [bind_of_error hnew (Prod.ext rfl he), get?_clearObservations_of_ne h, get?_modifyBinding_of_ne h, hread]

/-- What is let go may be a binding, which then goes. -/
theorem get?_of_letGo {r : Ref} (hz : (s.letGo r).bindings.get? c = some z) : s.bindings.get? c = some z := by
  by_cases hr : r.thing = .binding
  · unfold letGo at hz
    split at hz
    · exact hz
    · simp only [hr] at hz
      split at hz
      · exact hz
      · rw [bindings_releaseAll, Table.get?_erase] at hz
        split at hz
        · cases hz
        · exact hz
  · rwa [bindings_letGo s hr] at hz

theorem get?_of_setName {name : String} {r : Ref} (hz : (s.setName name r).bindings.get? c = some z) :
    s.bindings.get? c = some z := by
  unfold setName at hz
  dsimp only at hz
  split at hz
  · exact hz
  · exact get?_of_letGo (s := { s with names := s.names.insert ⟨r.thing, name⟩ r.number }) hz

/-- From `s` to `t`, the binding has stayed as it is, or has gone, or is new and nothing has happened to it yet. -/
def Untouched (s t : Session) (c : BindingId) : Prop :=
  ∀ z, t.bindings.get? c = some z →
    s.bindings.get? c = some z ∨
      s.store.fresh ≤ c.number ∧ z.isBound = false ∧ z.observations = {} ∧ z.lastError = none

theorem Untouched.of_eq (h : t.bindings.get? c = s.bindings.get? c) : Untouched s t c :=
  fun _ hz => .inl (h ▸ hz)

theorem untouched_addBinding (s : Session) (name : String) (hx : x.isBound = false) (hempty : x.observations = {})
    (herror : x.lastError = none) (c : BindingId) : Untouched s (s.addBinding name x).session c := by
  intro z hz
  have hz : ({ s.fresh.1 with bindings := s.bindings.insert ⟨s.store.fresh⟩ x } : Session).bindings.get? c = some z :=
    get?_of_setName hz
  rw [Table.get?_insert] at hz
  split at hz
  next hc =>
    obtain rfl := Option.some.inj hz
    exact .inr ⟨by simp [← hc], hx, hempty, herror⟩
  · exact .inl hz

/-! ### Acts -/

/-- The binding that a command binds or unbinds. -/
def turnedBy? (s : Session) : Command → Option BindingId
  | .bind binding .. | .unbind binding => (s.binding? binding).map (·.1)
  | _ => none

/-- The binding that has its turn in an act. -/
def turned? (s : Session) (a : Act) : Option BindingId :=
  match a, s.pending with
  | .step, .notify _ _ _ (.binding b :: _) :: _ => some b
  | a, _ => (s.carriedOut? a).bind fun x => x.1.turnedBy? x.2

theorem MakeAnswer.untouched {name system target : String} {a : Answer} (ha : MakeAnswer s name system target a)
    (c : BindingId) : Untouched s a.session c := by
  cases ha with
  | refused => exact .of_eq rfl
  | made _ _ hx =>
    refine untouched_addBinding s name ?_ ?_ hx.failed c
    · rw [Binding.isBound, hx.state]
      rfl
    · rw [hx.observations]

theorem untouched_answer (h : Sound g.hand s) {d : Command} (hd : s.turnedBy? d ≠ some c) :
    Ensures (fun a => Untouched s a.session c) (s.answer? d) := by
  cases hturns : d.turns with
  | false => exact fun a ha => .of_eq (by rw [bindings_answer h hturns a ha])
  | true =>
    cases d with
    | makeFromAttribute => exact fun a ha => (answer_makeFromAttribute ha).untouched c
    | makeBinding => exact fun a ha => (answer_makeBinding ha).untouched c
    | drop what name =>
      simp only [answer?, answerDrop]
      split
      · exact .some (.of_eq rfl)
      · exact .some fun z hz => .inl (get?_of_letGo (s := { s with names := s.names.erase ⟨what, name⟩ }) hz)
    | bind binding scope host =>
      refine .bind_pair fun b x hb => .bind fun _ _ => .bind fun _ _ => ?_
      have hne : b ≠ c := fun he => hd (by simp [turnedBy?, hb, he])
      split
      next hr => exact .some (.of_eq (by rw [← get?_bind_of_ne hne s x, hr]; rfl))
      next hr => exact .some (.of_eq (by rw [← get?_bind_of_ne hne s x, hr]; rfl))
    | unbind binding =>
      refine .bind_pair fun b x hb => .some (.of_eq ?_)
      have hne : b ≠ c := fun he => hd (by simp [turnedBy?, hb, he])
      exact get?_unbind_of_ne hne s
    | _ => cases hturns

theorem untouched_execute (h : Sound g.hand s) {d : Command} (hd : s.turnedBy? d ≠ some c) :
    Untouched s (s.execute d).session c := by
  unfold execute
  cases ha : s.answer? d with
  | none => exact .of_eq rfl
  | some a => exact untouched_answer h hd a ha

theorem turned?_of_carriedOut {d : Command} (h : s.carriedOut? a = some (t, d)) : s.turned? a = t.turnedBy? d := by
  obtain ⟨rfl, rfl⟩ | ⟨label, ds, rest, rfl, hp, rfl⟩ := carriedOut?_eq_some h
  · rfl
  · simp [turned?, carriedOut?, hp]

theorem evaluation?_of_carriedOut {d : Command} (h : s.carriedOut? a = some (t, d)) : s.evaluation? a = t.bound? d := by
  obtain ⟨rfl, rfl⟩ | ⟨label, ds, rest, rfl, hp, rfl⟩ := carriedOut?_eq_some h
  · rfl
  · exact evaluation?_perform hp

/-- A task other than a command leaves the bindings alone but the one that it tells of a change. -/
theorem untouched_step (hcarried : s.carriedOut? .step = none) (hc : s.turned? .step ≠ some c) :
    Untouched s s.step c := by
  unfold step
  split
  · exact .of_eq rfl
  next t rest hp =>
    cases t with
    | notify w new previous ls =>
      cases ls with
      | nil => exact .of_eq rfl
      | cons l ls =>
        simp only [doTask]
        split
        · cases l with
          | binding b =>
            have hbc : b ≠ c := by
              rintro rfl
              exact hc (by simp [turned?, hp])
            exact .of_eq (get?_refresh_of_ne hbc { s with pending := .notify w new previous ls :: rest })
          | recorder i =>
            exact .of_eq (congrArg (Table.get? · c)
              (bindings_tell_recorder (s := { s with pending := .notify w new previous ls :: rest }) i new previous))
        · exact .of_eq rfl
    | deliver i e ks =>
      cases ks with
      | nil => exact .of_eq rfl
      | cons k ks =>
        exact .of_eq (congrArg (Table.get? · c)
          (bindings_receive (s := { s with pending := .deliver i e ks :: rest }) e k))
    | perform label ds =>
      cases ds with
      | nil => exact .of_eq rfl
      | cons d ds => simp [carriedOut?, hp] at hcarried
    | report label reply => exact .of_eq rfl
    | keep r => exact fun z hz => .inl (get?_of_letGo (s := { s with pending := rest }) hz)
    | adopt name k => exact fun z hz => .inl (get?_of_setName (s := { s with pending := rest }) hz)

/-- An act leaves the bindings alone that do not have their turn in it. -/
theorem untouched_act (h : Sound (· ∈ s.held) s) (hc : s.turned? a ≠ some c) : Untouched s (s.act a) c := by
  cases hcarried : s.carriedOut? a with
  | some e =>
    obtain ⟨t, d⟩ := e
    have ht : Sound t.bare.hand t := sound_carriedOut? h hcarried
    rw [turned?_of_carriedOut hcarried] at hc
    obtain ⟨ts, us, rfl, hact⟩ := eq_of_carriedOut? hcarried
    rw [hact]
    exact untouched_execute ht hc
  | none =>
    cases a with
    | command d => cases hcarried
    | step => exact untouched_step hcarried hc

/-- What a command that binds comes to, if the scopes that it names are known. -/
theorem session_bind {binding scope : String} {host : Option String} {y : Scope} {host' : Option Scope}
    (hb : s.binding? binding = some (b, x)) (hy : s.scope? scope = some y) (hhost : s.host? host = some host') :
    (s.execute (.bind binding scope host)).session = (s.bind b x { scope := y, host := host' }).1.session := by
  cases hr : s.bind b x { scope := y, host := host' } with
  | mk r result =>
    cases result <;> simp [execute, answer?, answerBind, hb, hy, hhost, hr, Reaction.answer, Reaction.andThen]

theorem get?_of_turnedBy? {d : Command} (hd : s.turnedBy? d = some b) : ∃ x, s.bindings.get? b = some x := by
  cases d with
  | bind | unbind =>
    obtain ⟨⟨b, x⟩, hb, rfl⟩ := Option.map_eq_some_iff.1 hd
    exact ⟨x, get?_of_binding? hb⟩
  | _ => cases hd

/-- What a binding is after a command that binds or unbinds it. -/
theorem settles_execute {d : Command} (hd : s.turnedBy? d = some b) (hx : s.bindings.get? b = some x) :
    ∃ z, (s.execute d).session.bindings.get? b = some z ∧ Settles ((s.bound? d).map (·.2)) x z := by
  cases d with
  | bind binding scope host =>
    obtain ⟨⟨b, w⟩, hb, rfl⟩ := Option.map_eq_some_iff.1 hd
    obtain rfl : w = x := Option.some.inj ((get?_of_binding? hb).symm.trans hx)
    cases hy : s.scope? scope with
    | none =>
      exact ⟨w, by simpa [execute, answer?, answerBind, hb, hy] using hx, by simpa [bound?, hb, hy] using .refl w⟩
    | some y =>
      cases hhost : s.host? host with
      | none =>
        exact ⟨w, by simpa [execute, answer?, answerBind, hb, hy, hhost] using hx,
          by simpa [bound?, hb, hy, hhost] using .refl w⟩
      | some host' =>
        obtain ⟨z, hz, hsettles⟩ := settles_bind hx { scope := y, host := host' }
        refine ⟨z, by rw [session_bind hb hy hhost]; exact hz, ?_⟩
        simp only [bound?, hb, hy, hhost, Option.bind_eq_bind, Option.bind_some, apply_ite (Option.map Prod.snd),
          Option.map_none]
        exact hsettles
  | unbind binding =>
    obtain ⟨⟨b, w⟩, hb, rfl⟩ := Option.map_eq_some_iff.1 hd
    obtain ⟨z, hz, hsettles, -⟩ := get?_unbind hx
    refine ⟨z, ?_, hsettles⟩
    simpa [execute, answer?, answerUnbind, hb] using hz
  | _ => cases hd

theorem turned?_notify {w : Source} {new previous : Value} {ls : List Listener} {rest : List Task}
    (hp : s.pending = .notify w new previous (.binding b :: ls) :: rest) : s.turned? .step = some b := by
  simp only [turned?, hp]

/-- A binding has its turn when it is told of a change or when a command is carried out that binds or unbinds it. -/
theorem turned?_eq_some (h : s.turned? a = some b) :
    (∃ w new previous ls rest, a = .step ∧ s.pending = .notify w new previous (.binding b :: ls) :: rest) ∨
      ∃ t d, s.carriedOut? a = some (t, d) ∧ t.turnedBy? d = some b := by
  unfold turned? at h
  split at h
  next w new previous b' ls rest hp =>
    obtain rfl := Option.some.inj h
    exact .inl ⟨w, new, previous, ls, rest, rfl, hp⟩
  · obtain ⟨⟨t, d⟩, hc, hd⟩ := Option.bind_eq_some_iff.1 h
    exact .inr ⟨t, d, hc, hd⟩

/-- Only what is there has its turn. -/
theorem absent_act (hturn : s.turned? a = some b) (hx : s.bindings.get? b = none) :
    (s.act a).bindings.get? b = none := by
  obtain ⟨w, new, previous, ls, rest, rfl, hp⟩ | ⟨t, d, hc, hd⟩ := turned?_eq_some hturn
  · have hgone :
        ({ s with pending := .notify w new previous ls :: rest } : Session).isPresent (.binding b) = false := by
      simp [isPresent, Table.contains, hx]
    simp only [act, step, hp, doTask]
    rw [if_neg (by simpa [push] using hgone)]
    exact hx
  · obtain ⟨x, hx'⟩ := get?_of_turnedBy? hd
    obtain ⟨ts, us, rfl, -⟩ := eq_of_carriedOut? hc
    rw [hx] at hx'
    cases hx'

/-- What a binding is after an act in which it had its turn. -/
theorem settles_act (hturn : s.turned? a = some b) (hx : s.bindings.get? b = some x) :
    ∃ z, (s.act a).bindings.get? b = some z ∧ Settles ((s.evaluation? a).map (·.2)) x z := by
  obtain ⟨w, new, previous, ls, rest, rfl, hp⟩ | ⟨t, d, hc, hd⟩ := turned?_eq_some hturn
  · obtain ⟨z, hz, hsettles⟩ := settles_refresh (s := { s with pending := .notify w new previous ls :: rest }) hx
    refine ⟨z, ?_, ?_⟩
    · rw [act, step_of_notify hp hx]
      exact hz
    · rw [evaluation?_notify hp, Option.map_map, Function.comp_def, Option.map_id']
      exact hsettles
  · rw [evaluation?_of_carriedOut hc]
    obtain ⟨ts, us, rfl, hact⟩ := eq_of_carriedOut? hc
    rw [hact]
    exact settles_execute hd hx

/-- A command evaluates a binding only if it binds it to other scopes than before. -/
theorem bound?_eq_some {d : Command} {r : Except ExpressionError Value} (h : s.bound? d = some (b, r)) :
    ∃ binding scope host x y host', d = .bind binding scope host ∧ s.binding? binding = some (b, x) ∧
      s.scope? scope = some y ∧ s.host? host = some host' ∧ (x.state.any fun w => w.scope.id = y.id) = false ∧
      r = ((s.boundTo b { scope := y, host := host' }).readAgain b x { scope := y, host := host' }).2 := by
  cases d with
  | bind binding scope host =>
    obtain ⟨⟨b', x⟩, hb, h⟩ := Option.bind_eq_some_iff.1 h
    obtain ⟨y, hy, h⟩ := Option.bind_eq_some_iff.1 h
    obtain ⟨host', hhost, h⟩ := Option.bind_eq_some_iff.1 h
    split at h
    · cases h
    next hnew =>
      obtain ⟨rfl, rfl⟩ := Prod.mk.inj (Option.some.inj h)
      exact ⟨binding, scope, host, x, y, host', rfl, hb, hy, hhost, by simpa using hnew, rfl⟩
  | _ => cases h

/-- A binding is evaluated when it is told of a change, if it is bound, or when a command binds it. -/
theorem evaluation?_eq_some {r : Except ExpressionError Value} (h : s.evaluation? a = some (b, r)) :
    (∃ w new previous ls rest, a = .step ∧ s.pending = .notify w new previous (.binding b :: ls) :: rest ∧
      ({ s with pending := .notify w new previous ls :: rest } : Session).refreshed? b = some r) ∨
      ∃ t d, s.carriedOut? a = some (t, d) ∧ t.bound? d = some (b, r) := by
  unfold evaluation? at h
  split at h
  next w new previous b' ls rest hp =>
    obtain ⟨r', hr, he⟩ := Option.map_eq_some_iff.1 h
    obtain ⟨rfl, rfl⟩ := Prod.mk.inj he
    exact .inl ⟨w, new, previous, ls, rest, rfl, hp, hr⟩
  · obtain ⟨⟨t, d⟩, hc, hd⟩ := Option.bind_eq_some_iff.1 h
    exact .inr ⟨t, d, hc, hd⟩

/-- What is evaluated is there, and has its turn. -/
theorem turned?_of_evaluation {r : Except ExpressionError Value} (h : s.evaluation? a = some (b, r)) :
    s.turned? a = some b ∧ ∃ x, s.bindings.get? b = some x := by
  obtain ⟨w, new, previous, ls, rest, rfl, hp, hr⟩ | ⟨t, d, hc, hd⟩ := evaluation?_eq_some h
  · obtain ⟨x, hx, -⟩ := Option.bind_eq_some_iff.1 hr
    exact ⟨turned?_notify hp, x, hx⟩
  · obtain ⟨binding, scope, host, x, y, host', rfl, hb, -⟩ := bound?_eq_some hd
    refine ⟨by rw [turned?_of_carriedOut hc, turnedBy?, hb, Option.map_some], x, ?_⟩
    obtain ⟨ts, us, rfl, -⟩ := eq_of_carriedOut? hc
    exact get?_of_binding? hb

end Session

end DataBinding
