import DataBinding.Proofs.Assignment
import DataBinding.Proofs.BindingHistory
import DataBinding.Proofs.ObjectHistory
import DataBinding.Proofs.Turns

/-!
# Who writes

A binding writes its target when it has its turn and comes to a value (`targetWrite?`), and it is bound then. No other
act changes what it has written, and no property changes but those that commands of the host write and the targets of
bindings that write. From when it is unbound until a command binds it again, a binding observes nothing and does not
write, whoever still has it in the list of those to be told (`boundWrites_play`).
-/

namespace DataBinding

/-- Whether a command writes a property for the host. -/
def Command.writesForHost : Command → Bool
  | .set .. | .assign .. | .updateSource .. => true
  | _ => false

namespace Session

variable {E : Effect → Prop} {g g' : Ghost} {s t : Session} {a : Act} {as : List Act} {b : BindingId} {x z : Binding}
  {y : Bound} {v : Value} {o : ObjectId} {n : String}

/-- The binding that writes its target in an act, and what it writes. -/
def targetWrite? (s : Session) (a : Act) : Option (BindingId × Value) :=
  match s.evaluation? a with
  | some (b, .ok v) => some (b, v)
  | _ => none

/-- The act carries out a command that binds the binding. -/
def Binds (s : Session) (a : Act) (b : BindingId) : Prop :=
  ∃ t d, s.carriedOut? a = some (t, d) ∧ t.bindingOf? d = some b

theorem targetWrite?_eq_some : s.targetWrite? a = some (b, v) ↔ s.evaluation? a = some (b, .ok v) := by
  unfold targetWrite?
  split
  next h => simp [h]
  next h =>
    constructor
    · nofun
    · exact fun he => absurd he (h b v)

/-! ### Properties -/

theorem Moves.property (hm : Moves E (g, s) (g', t)) (hE : ¬E (.puts o n)) (ho : o.number < s.store.fresh) :
    t.store.property o n = s.store.property o n := by
  generalize hp : (g, s) = p at hm
  generalize hq : (g', t) = q at hm
  induction hm generalizing g' t with
  | refl =>
    obtain ⟨-, rfl⟩ := Prod.mk.inj (hp.trans hq.symm)
    rfl
  | @tail r q hm hlast ih =>
    subst hp
    obtain ⟨f, hf, hlast⟩ := hlast
    have hnow := hlast.property (Nat.lt_of_lt_of_le ho (Moves.fresh_le hm)) (o := o) (n := n) fun he => hE (he ▸ hf)
    rw [← hq] at hnow
    exact hnow.trans (ih rfl)

theorem not_reading_puts : ¬Reading b (.puts o n) := by
  simp [Reading, Calm, Silent]

/-- Whoever evaluates writes nothing. -/
theorem property_readAgain (h : Sound g.hand s) {x' : Binding} (hb : s.bindings.get? b = some x')
    (hy : x'.state = some y) (hsystem : x'.system = x.system) (ho : o.number < s.store.fresh) :
    (s.readAgain b x y).1.store.property o n = s.store.property o n := by
  obtain ⟨g', hm, -⟩ := Moves.readAgain h hb hy hsystem
  exact hm.property not_reading_puts ho

theorem Steady.property (h : Steady s t) (o : ObjectId) (n : String) : t.store.property o n = s.store.property o n := by
  simp only [Store.property, Object.get, h.properties]

theorem property_writeTarget (s : Session) (b : BindingId) (x : Binding) (v : Value) :
    (s.writeTarget b x v).session.store.property x.target x.property = v :=
  property_write ..

theorem property_writeTarget_of_ne (s : Session) (b : BindingId) (v : Value) (hne : x.slot ≠ .property o n) :
    (s.writeTarget b x v).session.store.property o n = s.store.property o n :=
  property_write_of_ne _ _ fun he => hne (by rw [he.1, he.2]; rfl)

/-- A binding that is told of a change writes its target if it comes to a value, and nothing else. -/
theorem property_refresh (h : Sound (· ∈ s.held) s) (hx : s.bindings.get? b = some x) (ho : o.number < s.store.fresh)
    (hnot : (∀ v, s.refreshed? b ≠ some (.ok v)) ∨ x.slot ≠ .property o n) :
    (s.refresh b).session.store.property o n = s.store.property o n := by
  cases hy : x.state with
  | none => rw [refresh_of_none (by simp [refreshed?, hx, hy])]
  | some y =>
    have hread : (s.readAgain b x y).1.store.property o n = s.store.property o n :=
      property_readAgain (g := s.bare) h hx hy rfl ho
    have hresult : s.refreshed? b = some (s.readAgain b x y).2 := by simp [refreshed?, hx, hy]
    rw [refresh_eq hx hy]
    rw [hresult] at hnot
    cases he : (s.readAgain b x y).2 with
    | ok v =>
      have hne := hnot.resolve_left fun hnone => hnone v (congrArg some he)
      exact (property_writeTarget_of_ne _ b v hne).trans
        ((((steady_clearStale _ b).trans (steady_modifyBinding ..)).property o n).trans hread)
    | error e => exact hread

theorem property_refresh_of_ok (hx : s.bindings.get? b = some x) (hv : s.refreshed? b = some (.ok v)) :
    (s.refresh b).session.store.property x.target x.property = v := by
  obtain ⟨w, hw, hv⟩ := Option.bind_eq_some_iff.1 hv
  obtain rfl := Option.some.inj (hx.symm.trans hw)
  obtain ⟨y, hy, hv⟩ := Option.bind_eq_some_iff.1 hv
  rw [refresh_eq hx hy, Option.some.inj hv]
  exact property_writeTarget ..

theorem steady_boundTo (s : Session) (b : BindingId) (y : Bound) : Steady s (s.boundTo b y) :=
  (steady_unbind ..).trans (steady_modifyBinding ..)

theorem Moves.boundTo (h : Sound g.hand s) (b : BindingId) (hscope : Within g.hand (sharedInScope y.scope))
    (hhost : ∀ w, y.host = some w → Within g.hand (sharedInScope w)) : Moves Silent (g, s) (g, s.boundTo b y) := by
  have hunbind := Moves.unbind h b
  refine hunbind.trans (.withState (h.moves hunbind) b _ fun z hz => ?_)
  obtain rfl := Option.some.inj hz
  exact ⟨hscope, hhost⟩

/-- A binding that is bound writes its target if it comes to a value, and nothing else. -/
theorem property_bind (h : Sound g.hand s) (hx : s.bindings.get? b = some x)
    (hscope : Within g.hand (sharedInScope y.scope)) (hhost : ∀ w, y.host = some w → Within g.hand (sharedInScope w))
    (ho : o.number < s.store.fresh) (hnew : (x.state.any fun w => w.scope.id = y.scope.id) = false)
    (hnot : (∀ v, ((s.boundTo b y).readAgain b x y).2 ≠ .ok v) ∨ x.slot ≠ .property o n) :
    (s.bind b x y).1.session.store.property o n = s.store.property o n := by
  have hm := Moves.boundTo h b hscope hhost
  have hsteady := steady_boundTo s b y
  obtain ⟨x', hx', -, hsystem⟩ := target_unbind hx
  have hstate : (s.boundTo b y).bindings.get? b = some { x' with state := some y } := by
    rw [Session.boundTo, get?_modifyBinding, if_pos rfl, hx', Option.map_some]
  have hread : ((s.boundTo b y).readAgain b x y).1.store.property o n = s.store.property o n :=
    (property_readAgain (h.moves hm) hstate rfl hsystem (hsteady.fresh ▸ ho)).trans (hsteady.property o n)
  cases he : ((s.boundTo b y).readAgain b x y).2 with
  | ok v =>
    have hne := hnot.resolve_left fun hnone => hnone v he
    rw [bind_of_ok hnew (Prod.ext rfl he)]
    exact (property_writeTarget_of_ne _ b v hne).trans (((steady_clearStale _ b).property o n).trans hread)
  | error e =>
    rw [bind_of_error hnew (Prod.ext rfl he)]
    exact (((steady_modifyBinding ..).trans (steady_clearObservations ..)).property o n).trans hread

theorem property_bind_of_ok (hnew : (x.state.any fun w => w.scope.id = y.scope.id) = false)
    (hv : ((s.boundTo b y).readAgain b x y).2 = .ok v) :
    (s.bind b x y).1.session.store.property x.target x.property = v := by
  rw [bind_of_ok hnew (Prod.ext rfl hv)]
  exact property_writeTarget ..

/-- An act in which a binding writes leaves the value in its target. -/
theorem property_of_targetWrite (h : s.targetWrite? a = some (b, v)) (hx : s.bindings.get? b = some x) :
    (s.act a).store.property x.target x.property = v := by
  obtain ⟨w, new, previous, ls, rest, rfl, hp, hv⟩ | ⟨t, d, hc, hd⟩ :=
    evaluation?_eq_some (targetWrite?_eq_some.1 h)
  · rw [act, step_of_notify hp hx]
    exact property_refresh_of_ok (s := { s with pending := .notify w new previous ls :: rest }) hx hv
  · obtain ⟨binding, scope, host, x', y, host', rfl, hb, hy, hhost, hnew, hv⟩ := bound?_eq_some hd
    obtain ⟨ts, us, rfl, hact⟩ := eq_of_carriedOut? hc
    obtain rfl : x' = x := Option.some.inj ((get?_of_binding? hb).symm.trans hx)
    rw [hact]
    change ((({ s with pending := ts } : Session).execute (.bind binding scope host)).session).store.property _ _ = v
    rw [session_bind hb hy hhost]
    exact property_bind_of_ok hnew hv.symm

/-- A command that binds writes no property but the target of a binding that comes to a value. -/
theorem property_execute_bind (h : Sound (· ∈ t.held) t) (ho : o.number < t.store.fresh) (binding scope : String)
    (host : Option String)
    (hslot : ∀ b v x, t.bound? (.bind binding scope host) = some (b, .ok v) → t.bindings.get? b = some x →
      x.slot ≠ .property o n) :
    (t.execute (.bind binding scope host)).session.store.property o n = t.store.property o n := by
  cases hb : t.binding? binding with
  | none => simp [execute, answer?, answerBind, hb]
  | some e =>
    obtain ⟨b, x⟩ := e
    have hx := get?_of_binding? hb
    cases hy : t.scope? scope with
    | none => simp [execute, answer?, answerBind, hb, hy]
    | some y =>
      cases hhost : t.host? host with
      | none => simp [execute, answer?, answerBind, hb, hy, hhost]
      | some host' =>
        rw [session_bind hb hy hhost]
        cases hnew : x.state.any fun w => w.scope.id = y.id with
        | true => rw [bind_of_bound (y := { scope := y, host := host' }) hnew]
        | false =>
          refine property_bind (g := t.bare) h hx (h.outside.scope hy) (h.outside.host hhost) ho hnew ?_
          by_cases hne : x.slot = .property o n
          · refine .inl fun v hv => hslot b v x ?_ hx hne
            simp [bound?, hb, hy, hhost, hnew, hv]
          · exact .inr hne

/-- A property changes only when a command of the host writes it or when it is the target of a binding that writes. -/
theorem property_act (h : Sound (· ∈ s.held) s) (ho : o.number < s.store.fresh)
    (hhost : ∀ t d, s.carriedOut? a = some (t, d) → d.writesForHost = false)
    (hslot : ∀ b v x, s.targetWrite? a = some (b, v) → s.bindings.get? b = some x → x.slot ≠ .property o n) :
    (s.act a).store.property o n = s.store.property o n := by
  by_cases hputs : s.ActAllows a (.puts o n)
  case neg =>
    obtain ⟨g, hm⟩ := moves_act h (fun _ _ _ => False) a
    exact hm.property hputs ho
  cases hputs with
  | calm hf => simp [Calm, Silent] at hf
  | @puts t d _ _ hc hw =>
    have hnot := hhost t d hc
    cases d with
    | bind binding scope host =>
      have ht := sound_carriedOut? h hc
      have hbound := evaluation?_of_carriedOut hc
      obtain ⟨ts, us, rfl, hact⟩ := eq_of_carriedOut? hc
      rw [hact]
      refine property_execute_bind ht ho binding scope host fun b v x hb hx => hslot b v x ?_ hx
      exact targetWrite?_eq_some.2 (hbound.trans hb)
    | set | assign | updateSource => cases hnot
    | _ => cases hw
  | @rewrites w new previous b ls rest _ _ ha hp hpresent =>
    subst ha
    obtain ⟨x, hx⟩ := Option.isSome_iff_exists.1 hpresent
    have ht : Sound (· ∈ ({ s with pending := .notify w new previous ls :: rest } : Session).held) _ :=
      h.take hp [.notify w new previous ls] (by simp [sharedInTask])
    rw [act, step_of_notify hp hx]
    refine property_refresh ht hx ho ?_
    by_cases hne : x.slot = .property o n
    · refine .inl fun v hv => hslot b v x (targetWrite?_eq_some.2 ?_) hx hne
      rw [evaluation?_notify hp, hv, Option.map_some]
    · exact .inr hne

/-! ### Bindings that are not bound -/

/-- What is not bound observes nothing. -/
def Resting (s : Session) : Prop :=
  ∀ c x, s.bindings.get? c = some x → x.isBound = false → x.observations.entries = []

theorem Resting.act (h : Resting s) (hs : Sound (· ∈ s.held) s) (a : Act) : Resting (s.act a) := by
  intro c z hz hbound
  by_cases hturn : s.turned? a = some c
  · cases hx : s.bindings.get? c with
    | none => cases hz.symm.trans (absent_act hturn hx)
    | some x =>
      obtain ⟨z', hz', hsettles⟩ := settles_act hturn hx
      obtain rfl := Option.some.inj (hz.symm.trans hz')
      rcases hsettles.idle hbound with hnone | ⟨hrest, hsame⟩
      · exact hnone
      · rw [hsame]
        exact h c x hx hrest
  · rcases untouched_act hs hturn z hz with hx | ⟨-, -, hempty, -⟩
    · exact h c z hx hbound
    · exact congrArg Observations.entries hempty

theorem resting_play (as : List Act) : Resting (initial.play as) := by
  induction as using List.reverseRecOn with
  | nil => exact fun c x hx => by cases hx
  | append_singleton as a ih =>
    rw [play_append]
    exact ih.act (sound_initial.play as) a

/-- A binding that has gone does not come back. -/
theorem absent_of_act (h : Sound (· ∈ s.held) s) (hold : b.number < s.store.fresh) (hx : s.bindings.get? b = none) :
    (s.act a).bindings.get? b = none := by
  obtain ⟨g, hm⟩ := moves_act h (fun _ _ _ => False) a
  refine Option.eq_none_iff_forall_ne_some.2 fun z hz => ?_
  obtain ⟨w, hw, -⟩ := Moves.becomes hm hold hz
  cases hx.symm.trans hw

/-- A binding keeps its slot, and what it has written unless it writes again. -/
theorem kept_act (h : Sound (· ∈ s.held) s) (hold : b.number < s.store.fresh) (hx : s.bindings.get? b = some x)
    (hz : (s.act a).bindings.get? b = some z) (hnot : ∀ v, s.targetWrite? a ≠ some (b, v)) :
    z.slot = x.slot ∧ z.value = x.value := by
  by_cases hturn : s.turned? a = some b
  · obtain ⟨z', hz', hsettles⟩ := settles_act hturn hx
    obtain rfl := Option.some.inj (hz.symm.trans hz')
    refine ⟨hsettles.slot, hsettles.kept fun v hv => ?_⟩
    obtain ⟨⟨c, r⟩, he, rfl⟩ := Option.map_eq_some_iff.1 hv
    obtain rfl : c = b := Option.some.inj ((turned?_of_evaluation he).1.symm.trans hturn)
    exact hnot v (targetWrite?_eq_some.2 he)
  · rcases untouched_act h hturn z hz with hsame | ⟨hnew, -⟩
    · obtain rfl := Option.some.inj (hx.symm.trans hsame)
      exact ⟨rfl, rfl⟩
    · exact absurd hold (Nat.not_lt.2 hnew)

/-- A binding that is evaluated is bound, or is bound now. -/
theorem isBound_of_evaluation {r : Except ExpressionError Value} (he : s.evaluation? a = some (b, r))
    (hb : ¬s.Binds a b) : ∃ x, s.bindings.get? b = some x ∧ x.isBound = true := by
  obtain ⟨w, new, previous, ls, rest, rfl, hp, hr⟩ | ⟨t, d, hc, hd⟩ := evaluation?_eq_some he
  · obtain ⟨x, hx, hr⟩ := Option.bind_eq_some_iff.1 hr
    obtain ⟨y, hy, -⟩ := Option.bind_eq_some_iff.1 hr
    exact ⟨x, hx, by rw [Binding.isBound, hy, Option.isSome_some]⟩
  · obtain ⟨binding, scope, host, x, y, host', rfl, hname, -⟩ := bound?_eq_some hd
    exact absurd ⟨t, _, hc, by simp [bindingOf?, hname]⟩ hb

/-- The binding is not bound, if it is there. -/
def Unbound (s : Session) (b : BindingId) : Prop := ∀ x, s.bindings.get? b = some x → x.isBound = false

/-- A binding that is not bound stays so until a command binds it, whoever tells it of changes. -/
theorem Unbound.act (h : s.Unbound b) (hs : Sound (· ∈ s.held) s) (hb : ¬s.Binds a b) : (s.act a).Unbound b := by
  intro z hz
  by_cases hturn : s.turned? a = some b
  · cases hx : s.bindings.get? b with
    | none => exact absurd (hz.symm.trans (absent_act hturn hx)) nofun
    | some x =>
      obtain ⟨z', hz', hsettles⟩ := settles_act hturn hx
      obtain rfl := Option.some.inj (hz.symm.trans hz')
      refine hsettles.unbound ?_ (h x hx)
      cases he : s.evaluation? a with
      | none => rfl
      | some e =>
        obtain rfl : e.1 = b := Option.some.inj ((turned?_of_evaluation he).1.symm.trans hturn)
        obtain ⟨w, hw, hbound⟩ := isBound_of_evaluation he hb
        exact absurd ((h w hw).symm.trans hbound) nofun
  · rcases untouched_act hs hturn z hz with hx | ⟨-, hbound, -⟩
    · exact h z hx
    · exact hbound

/-- A command that unbinds a binding leaves it so. -/
theorem unbound_of_unbind {name : String} (hc : s.carriedOut? a = some (t, .unbind name))
    (hname : t.binding? name = some (b, x)) : (s.act a).Unbound b := by
  obtain ⟨ts, us, rfl, hact⟩ := eq_of_carriedOut? hc
  obtain ⟨z, hz, -, hbound⟩ := get?_unbind (get?_of_binding? hname)
  intro w hw
  rw [hact] at hw
  have hanswer : (({ s with pending := ts } : Session).execute (.unbind name)).session =
      ({ s with pending := ts } : Session).unbind b := by simp [execute, answer?, answerUnbind, hname]
  change (({ s with pending := ts } : Session).execute (.unbind name)).session.bindings.get? b = some w at hw
  rw [hanswer] at hw
  exact Option.some.inj (hz.symm.trans hw) ▸ hbound

/-- The run has unbound the binding, which was `x` before that, and has not bound it again. -/
inductive LeftUnbound (b : BindingId) (x : Binding) : List Act → Prop
  | unbinds {as : List Act} {a : Act} {t : Session} {name : String} :
    (initial.play as).carriedOut? a = some (t, .unbind name) → t.binding? name = some (b, x) →
    LeftUnbound b x (as ++ [a])
  | acts {as : List Act} {a : Act} : LeftUnbound b x as → ¬(initial.play as).Binds a b → LeftUnbound b x (as ++ [a])

/-- What is left unbound has written nothing since. -/
theorem LeftUnbound.settled (h : LeftUnbound b x as) :
    (initial.play as).Unbound b ∧ b.number < (initial.play as).store.fresh ∧
      ∀ z, (initial.play as).bindings.get? b = some z → z.value = x.value := by
  have hfresh : ∀ bs a, (initial.play bs).store.fresh ≤ ((initial.play bs).act a).store.fresh := fun bs a =>
    fresh_le_act (sound_initial.play bs) a
  induction h with
  | @unbinds as a t name hc hname =>
    have hsound := sound_initial.play as
    have hx : (initial.play as).bindings.get? b = some x := by
      obtain ⟨ts, us, rfl, -⟩ := eq_of_carriedOut? hc
      exact get?_of_binding? hname
    have hold := old_bindings_play as b _ hx
    rw [play_append]
    refine ⟨unbound_of_unbind hc hname, Nat.lt_of_lt_of_le hold (hfresh as a), fun z hz => ?_⟩
    refine (kept_act hsound hold hx hz fun v hv => ?_).2
    have he := targetWrite?_eq_some.1 hv
    rw [evaluation?_of_carriedOut hc] at he
    cases he
  | @acts as a _ hb ih =>
    obtain ⟨hrest, hold, hvalue⟩ := ih
    have hsound := sound_initial.play as
    rw [play_append]
    refine ⟨hrest.act hsound hb, Nat.lt_of_lt_of_le hold (hfresh as a), fun z hz => ?_⟩
    cases hx : (initial.play as).bindings.get? b with
    | none => exact absurd (hz.symm.trans (absent_of_act hsound hold hx)) nofun
    | some w =>
      refine ((kept_act hsound hold hx hz fun v hv => ?_).2).trans (hvalue w hx)
      obtain ⟨u, hu, hbound⟩ := isBound_of_evaluation (targetWrite?_eq_some.1 hv) hb
      exact absurd ((hrest u hu).symm.trans hbound) nofun

/-- What the bindings of a run write: the run has come to a state, and something more is done. -/
structure BoundWrites (as : List Act) : Prop where
  /-- A binding that writes was bound, unless a command binds it now. It is bound, and its target has what it wrote. -/
  written {a : Act} {b : BindingId} {v : Value} : (initial.play as).targetWrite? a = some (b, v) →
    ((∃ x, (initial.play as).bindings.get? b = some x ∧ x.isBound = true) ∨ (initial.play as).Binds a b) ∧
      ∃ z, (initial.play (as ++ [a])).bindings.get? b = some z ∧ z.isBound = true ∧ z.value = v ∧
        (initial.play (as ++ [a])).store.property z.target z.property = v
  /-- What a binding wrote last is the same as before unless it writes, and it always writes to the same target. -/
  kept {a : Act} {b : BindingId} {x z : Binding} : (initial.play as).bindings.get? b = some x →
    (initial.play (as ++ [a])).bindings.get? b = some z → (∀ v, (initial.play as).targetWrite? a ≠ some (b, v)) →
    z.slot = x.slot ∧ z.value = x.value
  /-- A property changes only when a command of the host writes it or when it is the target of a binding that writes. -/
  changed {a : Act} {o : ObjectId} {n : String} : o.number < (initial.play as).store.fresh →
    (initial.play (as ++ [a])).store.property o n ≠ (initial.play as).store.property o n →
    (∃ t d, (initial.play as).carriedOut? a = some (t, d) ∧ d.writesForHost = true) ∨
      ∃ b v x, (initial.play as).targetWrite? a = some (b, v) ∧ (initial.play as).bindings.get? b = some x ∧
        x.slot = .property o n
  /-- A binding that is not bound observes nothing. -/
  idle {b : BindingId} {x : Binding} : (initial.play as).bindings.get? b = some x → x.isBound = false →
    x.observations.entries = []
  /-- A binding that was unbound and not bound again is not bound, observes nothing and has written nothing since. -/
  unbound {b : BindingId} {x z : Binding} : LeftUnbound b x as → (initial.play as).bindings.get? b = some z →
    z.isBound = false ∧ z.observations.entries = [] ∧ z.value = x.value
  /-- It does not write next either unless a command binds it. -/
  silent {a : Act} {b : BindingId} {x : Binding} {v : Value} : LeftUnbound b x as → ¬(initial.play as).Binds a b →
    (initial.play as).targetWrite? a ≠ some (b, v)

theorem written_play {a : Act} (h : (initial.play as).targetWrite? a = some (b, v)) :
    ∃ z, (initial.play (as ++ [a])).bindings.get? b = some z ∧ z.isBound = true ∧ z.value = v ∧
      (initial.play (as ++ [a])).store.property z.target z.property = v := by
  obtain ⟨hturn, x, hx⟩ := turned?_of_evaluation (targetWrite?_eq_some.1 h)
  obtain ⟨z, hz, hsettles⟩ := settles_act hturn hx
  obtain ⟨hvalue, hbound⟩ := hsettles.wrote (v := v) (by rw [targetWrite?_eq_some.1 h, Option.map_some])
  obtain ⟨htarget, hproperty⟩ := Source.property.inj hsettles.slot
  rw [play_append]
  refine ⟨z, hz, hbound, hvalue, ?_⟩
  rw [htarget, hproperty]
  exact property_of_targetWrite h hx

/-- In every run, a binding writes only while it is bound, and what was unbound neither observes nor writes until a
command binds it again. -/
theorem boundWrites_play (as : List Act) : BoundWrites as where
  written {a b v} h := by
    refine ⟨?_, written_play h⟩
    by_cases hb : (initial.play as).Binds a b
    · exact .inr hb
    · exact .inl (isBound_of_evaluation (targetWrite?_eq_some.1 h) hb)
  kept hx hz hnot := by
    rw [play_append] at hz
    exact kept_act (sound_initial.play as) (old_bindings_play as _ _ hx) hx hz hnot
  changed {a o n} ho hne := by
    rw [play_append] at hne
    by_contra hnone
    obtain ⟨hhost, hslot⟩ := not_or.1 hnone
    refine hne (property_act (sound_initial.play as) ho (fun t d hc => ?_) fun b v x hv hx hs => ?_)
    · exact Bool.eq_false_iff.2 fun hd => hhost ⟨t, d, hc, hd⟩
    · exact hslot ⟨b, v, x, hv, hx, hs⟩
  idle := resting_play as _ _
  unbound h hz := by
    obtain ⟨hrest, -, hvalue⟩ := h.settled
    exact ⟨hrest _ hz, resting_play as _ _ hz (hrest _ hz), hvalue _ hz⟩
  silent h hb hv := by
    obtain ⟨x, hx, hbound⟩ := isBound_of_evaluation (targetWrite?_eq_some.1 hv) hb
    exact absurd ((h.settled.1 x hx).symm.trans hbound) nofun

/-- A listener unbinds a binding that has yet to be told of the same change: it has its turn all the same, and writes
nothing. -/
example :
    let as : List Act := [.command (.makeObject "o" []), .command (.makeObject "target" []),
      .command (.makeScope "scope" "o" none none), .command (.makeRecorder "r" [.unbind "b"] 1),
      .command (.listen (.property "o" "p") "r" "s"),
      .command (.makeBinding "b" "main" (.ok (.scope "p" 0 false)) "target" "x" {}),
      .command (.bind "b" "scope" none), .command (.set "o" "p" (.int 1)), .step, .step, .step, .step, .step]
    (initial.play as).turned? .step = some ⟨6⟩ ∧ ((initial.play as).targetWrite? .step).isNone = true := by
  decide +kernel

end Session

end DataBinding
