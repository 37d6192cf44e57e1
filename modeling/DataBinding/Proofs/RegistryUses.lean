import DataBinding.Proofs.AlikeRegistries
import DataBinding.Proofs.Attendance
import DataBinding.Proofs.Footprint
import DataBinding.Proofs.Recast
import DataBinding.Proofs.RegistrySize
import DataBinding.Proofs.Rounds

/-!
# What registries are used for

The registry of a system is used by the evaluations of its bindings, by those of the host, and by the commands that name
the system. An act works with one system at most; `Session.uses?` says with which one, and lists what is asked of its
registry, each use with its moment. That is all that happens to systems, but for those that are made (`touches_act`). So
a registry is what its uses in the run have made of a new one (`tracks_play`), and its size is bounded by its threshold
and by what was live at one time (`registries_stay_small`).
-/

namespace DataBinding

/-! ### Evaluations -/

/-- What the question asks of a registry, if it does. -/
def Question.use? (ctx : EvalContext) (watched : Bool) (s : Store) : Question → Option Registry.Use
  | stream i => if watched then some (.observerFor ctx.alive s i) else none
  | _ => none

theorem Question.registry_answer (ctx : EvalContext) (watched : Bool) (s : Store) (r : Registry) (q : Question) :
    (q.answer ctx watched s r).2.2 = r.play (q.use? ctx watched s).toList := by
  cases q with
  | stream i => cases watched <;> rfl
  | _ => rfl

namespace Inquiry

variable {α : Type} {ctx : EvalContext} {watched : Bool} {s : Store} {r : Registry}

/-- What is asked of the registry while the questions are answered. -/
def uses (ctx : EvalContext) (watched : Bool) : Inquiry α → Store → Registry → List Registry.Use
  | done _, _, _ => []
  | fail _, _, _ => []
  | ask _ q next, s, r =>
    let (a, s', r') := q.answer ctx watched s r
    (q.use? ctx watched s).toList ++ (next a).uses ctx watched s' r'

theorem registry_run (m : Inquiry α) (s : Store) (r : Registry) :
    (m.run ctx watched s r).registry = r.play (m.uses ctx watched s r) := by
  induction m generalizing s r with
  | done a => rfl
  | fail x => rfl
  | ask p q next ih =>
    simp only [run, uses, Registry.play_append, ← Question.registry_answer, ih]

/-- Whatever is asked of the registry is asked for a stream that is read. -/
theorem exists_read_of_mem_uses (m : Inquiry α) {u : Registry.Use} (hu : u ∈ m.uses ctx watched s r) :
    ∃ t i o, u = .observerFor ctx.alive t i ∧
      .stream i o ∈ (m.run ctx watched s r).asked.filterMap Exchange.read? := by
  induction m generalizing s r with
  | done a => cases hu
  | fail x => cases hu
  | ask p q next ih =>
    rcases List.mem_append.1 hu with hu | hu
    · cases q with
      | stream i =>
        cases watched with
        | false => cases hu
        | true =>
          obtain rfl := List.mem_singleton.1 hu
          exact ⟨s, i, _, rfl, List.mem_filterMap.2 ⟨_, List.mem_cons_self .., rfl⟩⟩
      | _ => cases hu
    · obtain ⟨t, i, o, rfl, ho⟩ := ih _ hu
      obtain ⟨x, hx, hread⟩ := List.mem_filterMap.1 ho
      exact ⟨t, i, o, rfl, List.mem_filterMap.2 ⟨x, List.mem_cons_of_mem _ hx, hread⟩⟩

end Inquiry

namespace Session

variable {s t : Session} {a : Act} {y : SystemId} {z : System} {used? : Option (SystemId × List Registry.Use)}

/-- What an evaluation with a system asks of the registry of the system. -/
def evaluationUses (s : Session) (y : SystemId) (flags : EvalFlags) (scope : Scope) (host : Option Scope) (w : Watch)
    (e : Expr) : List Registry.Use :=
  match s.systems.get? y with
  | none => []
  | some z =>
    (e.inquiry flags.strict scope).uses { flags, scope, host, converters := z.converters, alive := s.isAlive }
      w.coversStreams s.store z.registry

/-- What an evaluation of the host asks of the registry. -/
def usesAlone (s : Session) (y : SystemId) (z : System) (place : Place) (scope : Scope) (host : Option Scope)
    (options : EvalOptions) (e : Expr) : List Registry.Use :=
  match if options.rebases then e.rebase z.config.marker else .ok e with
  | .error _ => []
  | .ok e => s.evaluationUses y place.flags scope host (if options.tracks then .everything else .nothing) e

/-! ### Acts -/

/-- The system that a command works with, and what is asked of its registry. A command that binds works with it in the
round that it begins. -/
def commandUses? (s : Session) : Command → Option (SystemId × List Registry.Use)
  | .addConverter system .. => do
    let (y, _) ← s.system? system
    return (y, [])
  | .observe system stream _ => do
    let (y, _) ← s.system? system
    let i ← s.named? .stream stream
    return (y, [.observerFor s.isAlive s.store i])
  | .peek system stream => do
    let (y, _) ← s.system? system
    let i ← s.named? .stream stream
    return (y, [.get s.store i])
  | .prune system => do
    let (y, _) ← s.system? system
    return (y, [.prune s.isAlive s.store])
  | .shutdown system => do
    let (y, _) ← s.system? system
    return (y, [.clear])
  | .evaluate expression place options => do
    let (y, z) ← s.system? place.system
    let scope ← s.scope? place.scope
    let host ← s.host? place.host
    match expression with
    | .error _ => none
    | .ok e => return (y, s.usesAlone y z place scope host options e)
  | _ => none

/-- What a round of reading asks of the registry of the binding's system. -/
def roundUses (r : Round) : List Registry.Use :=
  (r.session.nextRound r.id).evaluationUses r.binding.system r.binding.flags r.bound.scope r.bound.host .everything
    r.binding.expression

/-- The system that an act works with, and what is asked of its registry. -/
def uses? (s : Session) (a : Act) : Option (SystemId × List Registry.Use) :=
  match s.round? a with
  | some r => some (r.binding.system, roundUses r)
  | none => (s.carriedOut? a).bind fun x => x.1.commandUses? x.2

/-- What is asked of the registry of the system `y`. -/
def usesOf (y : SystemId) : Option (SystemId × List Registry.Use) → List Registry.Use
  | some (x, us) => if x = y then us else []
  | none => []

theorem usesOf_some (x y : SystemId) (us : List Registry.Use) : usesOf y (some (x, us)) = if x = y then us else [] :=
  rfl

/-- What a run asks of the registry of a system. -/
def usesIn (s : Session) (y : SystemId) : List Act → List Registry.Use
  | [] => []
  | a :: as => usesOf y (s.uses? a) ++ (s.act a).usesIn y as

/-- From one session to another, registries are what their uses make of them, and systems are added that are new. -/
structure Touches (s t : Session) (used? : Option (SystemId × List Registry.Use)) : Prop where
  old {y : SystemId} {z : System} : s.systems.get? y = some z → ∃ z', t.systems.get? y = some z' ∧
    z'.config = z.config ∧ z'.registry = z.registry.play (usesOf y used?)
  added {y : SystemId} {z : System} : s.systems.get? y = none → t.systems.get? y = some z →
    z = System.ofConfig z.config
  unused {y : SystemId} : s.systems.get? y = none → usesOf y used? = []

theorem touches_nothing (h : t.systems = s.systems) (hnone : ∀ y, usesOf y used? = []) : Touches s t used? where
  old {y z} hz := by
    rw [h, hnone]
    exact ⟨z, hz, rfl, rfl⟩
  added hnone hz := by
    rw [h, hnone] at hz
    cases hz
  unused _ := hnone _

/-- The registry of one system is used. -/
theorem touches_used (hz : s.systems.get? y = some z) {us : List Registry.Use} {m : Table String Converter}
    (h : t.systems = s.systems.insert y { z with registry := z.registry.play us, converters := m }) :
    Touches s t (some (y, us)) where
  old {x w} hw := by
    rw [h, Table.get?_insert, usesOf_some]
    split
    next hyx =>
      subst hyx
      obtain rfl := Option.some.inj (hz.symm.trans hw)
      exact ⟨_, rfl, rfl, rfl⟩
    · exact ⟨w, hw, rfl, rfl⟩
  added {x w} hnone hw := by
    rw [h, Table.get?_insert] at hw
    split at hw
    next hyx =>
      subst hyx
      cases hz.symm.trans hnone
    · cases hnone.symm.trans hw
  unused {x} hnone := by
    rw [usesOf_some]
    split
    next hyx =>
      subst hyx
      cases hz.symm.trans hnone
    · rfl

theorem touches_made (hnew : s.systems.get? y = none) {c : Config}
    (h : t.systems = s.systems.insert y (.ofConfig c)) : Touches s t none where
  old {x w} hw := by
    refine ⟨w, ?_, rfl, rfl⟩
    rw [h, Table.get?_insert]
    split
    next hyx =>
      subst hyx
      cases hnew.symm.trans hw
    · exact hw
  added {x w} hnone hw := by
    rw [h, Table.get?_insert] at hw
    split at hw
    · obtain rfl := Option.some.inj hw
      rfl
    · cases hnone.symm.trans hw
  unused _ := rfl

theorem Touches.congr {s' t' : Session} (h : Touches s t used?) (hs : s'.systems = s.systems)
    (ht : t'.systems = t.systems) : Touches s' t' used? where
  old hz := by
    rw [hs] at hz
    rw [ht]
    exact h.old hz
  added hnone hz := h.added (hs ▸ hnone) (ht ▸ hz)
  unused hnone := h.unused (hs ▸ hnone)

/-- Evaluating with a system uses its registry, and does nothing else to systems. -/
theorem touches_evaluate (s : Session) (y : SystemId) (flags : EvalFlags) (scope : Scope) (host : Option Scope)
    (w : Watch) (e : Expr) :
    Touches s (s.evaluate y flags scope host w e).1 (some (y, s.evaluationUses y flags scope host w e)) := by
  cases hz : s.systems.get? y with
  | none =>
    simp only [evaluate, evaluationUses, hz]
    exact touches_nothing rfl fun x => ite_self []
  | some z =>
    rw [evaluate_of_get? hz]
    simp only [evaluationUses, hz]
    refine touches_used hz (m := z.converters) ?_
    rw [← Inquiry.registry_run, Expr.evaluate_eq_run]
    rfl

/-! ### What leaves the systems alone -/

/-- A command that is not understood changes nothing. -/
theorem systems_execute {c : Command} (h : ∀ a, s.answer? c = some a → a.session.systems = s.systems) :
    (s.execute c).session.systems = s.systems := by
  unfold execute
  cases ha : s.answer? c with
  | none => rfl
  | some a => exact h a ha

/-- A command that does not look at systems leaves them as they are. -/
theorem systems_execute_of_aside {c : Command} (hc : c.looksAtSystems = false) :
    (s.execute c).session.systems = s.systems := by
  refine systems_execute fun a ha => ?_
  have hsame := @recast_answer? s id s.systems c hc
  rw [recast_self, ha] at hsame
  exact congrArg (fun b : Answer => b.session.systems) (Option.some.inj hsame)

theorem systems_valueOf? {u : HostValue} {v : Value} (h : s.valueOf? u = some (t, v)) : t.systems = s.systems := by
  have hsame := @recast_valueOf? id s.systems u s
  rw [recast_self, h] at hsame
  exact congrArg (fun r : Session × Value => r.1.systems) (Option.some.inj hsame)

theorem systems_setName (s : Session) (name : String) (r : Ref) : (s.setName name r).systems = s.systems :=
  systems_of_recast (f := fun u => u.setName name r) (fun _ _ _ => recast_setName name r) s

theorem systems_addBinding (s : Session) (name : String) (b : Binding) :
    (s.addBinding name b).session.systems = s.systems :=
  systems_of_recast (f := fun u => (u.addBinding name b).session)
    (fun _ _ _ => congrArg Answer.session (recast_addBinding name b)) s

/-- On the way to a place a registry has nothing to do, for nothing is watched. -/
theorem systems_assign {flags : EvalFlags} {scope : Scope} {host : Option Scope} {e : Expr} {v : Value} {r : Reaction}
    (h : s.assign y flags scope host e v = .ok r) : r.session.systems = s.systems := by
  have hlooks : (s.destination y flags scope host e v).1.systems = s.systems :=
    Table.ext_get? (onlyMakes_destination s y flags scope host e v).systems
  obtain ⟨t, d, hd, rfl⟩ := exists_write_of_assign h
  rw [hd] at hlooks
  exact (systems_write ..).trans hlooks

theorem systems_updateSource {x : Binding} {v : Value} {r : Reaction} (h : s.updateSource x v = .ok r) :
    r.session.systems = s.systems := by
  obtain ⟨w, -, hassign⟩ := exists_assign_of_updateSource h
  exact systems_assign hassign

theorem systems_afterRefresh (s : Session) (b : BindingId) (x : Binding) (result : Except ExpressionError Value) :
    (afterRefresh b x result s).session.systems = s.systems := by
  cases result with
  | ok v => simp only [afterRefresh, writeTarget, systems_write, modifyBinding, (steady_clearStale ..).systems]
  | error e => rfl

theorem systems_afterBind (s : Session) (b : BindingId) (x : Binding) (result : Except ExpressionError Value) :
    (afterBind b x result s).1.session.systems = s.systems := by
  cases result with
  | ok v => simp only [afterBind, writeTarget, systems_write, modifyBinding, (steady_clearStale ..).systems]
  | error e => exact (steady_clearObservations ..).systems

theorem systems_entered (r : Round) : r.entered.systems = r.evaluated.systems :=
  systems_of_recast (f := fun u => u.observe r.id r.reads) (fun _ _ _ => recast_observe r.id r.reads) r.evaluated

/-- A binding that is made by itself or from an attribute, or refused, leaves systems alone. -/
theorem MakeAnswer.systems {name system target : String} {a : Answer} (ha : MakeAnswer s name system target a) :
    a.session.systems = s.systems := by
  cases ha with
  | refused => rfl
  | made => exact systems_addBinding ..

theorem systems_makeFromAttribute (s : Session) (name system attr : String) (expression : HostExpr) (target : String) :
    (s.execute (.makeFromAttribute name system attr expression target)).session.systems = s.systems :=
  systems_execute fun _ ha => (answer_makeFromAttribute ha).systems

theorem systems_makeBinding (s : Session) (name system : String) (expression : HostExpr) (target property : String)
    (flags : EvalFlags) :
    (s.execute (.makeBinding name system expression target property flags)).session.systems = s.systems :=
  systems_execute fun _ ha => (answer_makeBinding ha).systems

theorem systems_answerAssign (s : Session) (expression : HostExpr) (place : Place) (value : HostValue) :
    (s.execute (.assign expression place value)).session.systems = s.systems := by
  refine systems_execute fun a ha => ?_
  cases answer_assign ha with
  | refused => rfl
  | accepted _ _ hv hr => exact (systems_assign hr).trans (systems_valueOf? hv)
  | failed hv => exact systems_valueOf? hv

theorem systems_answerUpdateSource (s : Session) (binding : String) (value : HostValue) :
    (s.execute (.updateSource binding value)).session.systems = s.systems := by
  refine systems_execute fun a ha => ?_
  cases answer_updateSource ha with
  | accepted _ hv hr => exact (systems_updateSource hr).trans (systems_valueOf? hv)
  | failed hv => exact systems_valueOf? hv

theorem systems_describe (s : Session) (what : Described) (name : String) :
    (s.execute (.describe what name)).session.systems = s.systems := by
  refine systems_execute fun a ha => ?_
  obtain ⟨text, -, ha⟩ := Option.bind_eq_some_iff.1 ha
  obtain rfl := Option.some.inj ha
  rfl

/-! ### What an act does to systems -/

/-- A round evaluates in the session in which it begins, and all that comes after leaves systems alone. -/
theorem touches_round {r : Round} (hr : s.round? a = some r) :
    Touches s (s.act a) (some (r.binding.system, roundUses r)) := by
  have heval : Touches (r.session.nextRound r.id) r.evaluated (some (r.binding.system, roundUses r)) :=
    touches_evaluate ..
  obtain htold | ⟨u, c, hc, hbind⟩ := round?_eq_some hr
  · obtain ⟨w, new, previous, ls, rest, rfl, hp, hsession, -⟩ := toldRound?_eq_some htold
    refine heval.congr ?_ ?_
    · exact (congrArg Session.systems hsession).symm
    · rw [act_of_toldRound htold]
      exact (systems_afterRefresh ..).trans (systems_entered r)
  · obtain ⟨binding, scope, host, rfl, -, -, -, -, hsession⟩ := bindRound?_eq_some hbind
    obtain ⟨ts, -, rfl, -⟩ := eq_of_carriedOut? hc
    obtain ⟨us, hact⟩ := act_of_bindRound hc hbind
    refine heval.congr ?_ ?_
    · have hbound : r.session.systems = s.systems := by
        rw [hsession]
        exact (steady_boundTo ..).systems
      exact hbound.symm
    · rw [hact]
      exact (systems_afterBind ..).trans (systems_entered r)

theorem touches_makeSystem (h : Sound (· ∈ s.held) s) (name : String) (config : Config) :
    Touches s (s.execute (.makeSystem name config)).session none := by
  have hnew : s.systems.get? ⟨s.store.fresh⟩ = none := by
    cases hz : s.systems.get? ⟨s.store.fresh⟩ with
    | none => rfl
    | some z => exact absurd (h.systemsOld (y := ⟨s.store.fresh⟩) (by simp [hz])) (Nat.lt_irrefl _)
  cases hc : config.validate with
  | error e =>
    simp only [execute, answer?, answerMakeSystem, hc, Option.getD_some]
    exact touches_nothing rfl fun _ => rfl
  | ok =>
    simp only [execute, answer?, answerMakeSystem, hc, Option.getD_some]
    exact touches_made hnew (systems_setName ..)

/-- A command looks up what it names. If that is not known, nothing happens. -/
theorem touches_look {α : Type} {o : Option α} {f : α → Option Answer}
    {g : α → Option (SystemId × List Registry.Use)}
    (h : ∀ a, o = some a → Touches s ((f a).getD { session := s, reply := .unknown }).session (g a)) :
    Touches s ((o >>= f).getD { session := s, reply := .unknown }).session (o >>= g) := by
  cases o with
  | none => exact touches_nothing rfl fun _ => rfl
  | some a => exact h a rfl

theorem touches_observe (s : Session) (system stream : String) (name : Option String) :
    Touches s (s.execute (.observe system stream name)).session (s.commandUses? (.observe system stream name)) := by
  refine touches_look ?_
  rintro ⟨y, z⟩ hy
  refine touches_look fun i _ => ?_
  have hz := get?_of_system? hy
  cases name with
  | none => exact touches_used hz (steady_letGoObserver ..).systems
  | some name => exact touches_used hz (systems_setName ..)

theorem touches_evaluateAlone (s : Session) (expression : HostExpr) (place : Place) (options : EvalOptions) :
    Touches s (s.execute (.evaluate expression place options)).session
      (s.commandUses? (.evaluate expression place options)) := by
  refine touches_look ?_
  rintro ⟨y, z⟩ -
  refine touches_look fun scope _ => touches_look fun host _ => ?_
  cases expression with
  | error e => exact touches_nothing rfl fun _ => rfl
  | ok e =>
    dsimp only
    unfold evaluateAlone usesAlone
    dsimp only
    generalize (if options.rebases then e.rebase z.config.marker else .ok e) = rebased
    cases rebased with
    | error x => exact touches_nothing rfl fun x => ite_self []
    | ok e' => exact (touches_evaluate ..).congr rfl (systems_letGoRead ..)

/-- A command that begins no round works with one system, or makes one, or leaves systems alone. -/
theorem touches_execute (h : Sound (· ∈ s.held) s) {c : Command} (hc : s.bindRound? c = none) :
    Touches s (s.execute c).session (s.commandUses? c) := by
  by_cases haside : c.looksAtSystems = false
  · have hnone : s.commandUses? c = none := by cases c <;> first | rfl | cases haside
    rw [hnone]
    exact touches_nothing (systems_execute_of_aside haside) fun _ => rfl
  cases c with
  | makeSystem name config => exact touches_makeSystem h name config
  | makeFromAttribute name system attr expression target =>
    exact touches_nothing (systems_makeFromAttribute ..) fun _ => rfl
  | makeBinding name system expression target property flags =>
    exact touches_nothing (systems_makeBinding ..) fun _ => rfl
  | addConverter system name c => exact touches_look fun p hy => touches_used (get?_of_system? hy) rfl
  | observe system stream name => exact touches_observe s system stream name
  | peek system stream =>
    refine touches_look fun p hy => touches_look fun i _ => ?_
    have hz := get?_of_system? hy
    exact touches_used hz (Table.insert_of_get? hz).symm
  | prune system => exact touches_look fun p hy => touches_used (get?_of_system? hy) rfl
  | shutdown system => exact touches_look fun p hy => touches_used (get?_of_system? hy) (systems_destroyAll ..)
  | evaluate expression place options => exact touches_evaluateAlone s expression place options
  | assign expression place value => exact touches_nothing (systems_answerAssign ..) fun _ => rfl
  | bind binding scope host =>
    refine touches_nothing ?_ fun _ => rfl
    obtain hunknown | ⟨b, x, y, -, -, -, -, hsame⟩ | ⟨r, hr⟩ := execute_bind s binding scope host
    · rw [hunknown]
    · rw [hsame]
    · cases hc.symm.trans hr
  | updateSource binding value => exact touches_nothing (systems_answerUpdateSource ..) fun _ => rfl
  | describe what name => exact touches_nothing (systems_describe ..) fun _ => rfl
  | _ => exact absurd rfl haside

/-- The next task leaves systems alone, unless it begins a round or carries out a command. -/
theorem systems_step (hround : s.round? .step = none) (hc : s.carriedOut? .step = none) :
    s.step.systems = s.systems := by
  unfold step
  cases hp : s.pending with
  | nil => rfl
  | cons k rest =>
    cases k with
    | notify w new previous ls =>
      cases ls with
      | nil => rfl
      | cons l ls =>
        simp only [doTask]
        split
        · cases l with
          | binding b =>
            have htold := (Option.or_eq_none_iff.1 hround).1
            rw [toldRound?_notify hp] at htold
            have hnone : ({ s with pending := .notify w new previous ls :: rest } : Session).refreshed? b = none := by
              rw [refreshed?_eq_refreshRound, htold, Option.map_none]
            exact congrArg (fun r : Reaction => r.session.systems) (refresh_of_none hnone)
          | recorder i =>
            exact systems_of_recast (f := fun u => (u.tell new previous (.recorder i)).session)
              (fun _ _ _ => congrArg Reaction.session (recast_tell_recorder i new previous)) _
        · rfl
    | deliver i e ks =>
      cases ks with
      | nil => rfl
      | cons l ks =>
        exact systems_of_recast (f := fun u => (u.receive e l).session)
          (fun _ _ _ => congrArg Reaction.session (recast_receive e l)) _
    | perform label cs =>
      cases cs with
      | nil => rfl
      | cons c cs => simp [carriedOut?, hp] at hc
    | report label reply => rfl
    | keep r => exact systems_of_recast (f := fun u => u.letGo r) (fun _ _ _ => recast_letGo r) _
    | adopt name l => exact systems_setName ..

/-- An act works with one system at most, or makes one. -/
theorem touches_act (h : Sound (· ∈ s.held) s) (a : Act) : Touches s (s.act a) (s.uses? a) := by
  unfold uses?
  cases hr : s.round? a with
  | some r => exact touches_round hr
  | none =>
    cases hc : s.carriedOut? a with
    | some x =>
      obtain ⟨u, c⟩ := x
      have hbind : u.bindRound? c = none := (round?_of_carriedOut hc).symm.trans hr
      have hexecute := touches_execute (sound_carriedOut? h hc) hbind
      obtain ⟨ts, us, rfl, hact⟩ := eq_of_carriedOut? hc
      rw [hact]
      exact hexecute.congr rfl rfl
    | none =>
      cases a with
      | command c => cases hc
      | step => exact touches_nothing (systems_step hr hc) fun _ => rfl

/-! ### Runs -/

/-- Each registry is what has been asked of it made of a new one. -/
structure Tracks (us : SystemId → List Registry.Use) (s : Session) : Prop where
  registry {y : SystemId} {z : System} : s.systems.get? y = some z →
    z.registry = (System.ofConfig z.config).registry.play (us y)
  unused {y : SystemId} : s.systems.get? y = none → us y = []

theorem Tracks.touches {us : SystemId → List Registry.Use} (h : Tracks us s) (ht : Touches s t used?) :
    Tracks (fun y => us y ++ usesOf y used?) t where
  registry {y z} hz := by
    cases hw : s.systems.get? y with
    | some w =>
      obtain ⟨z', hz', hconfig, hregistry⟩ := ht.old hw
      obtain rfl := Option.some.inj (hz'.symm.trans hz)
      rw [hregistry, h.registry hw, hconfig, Registry.play_append]
    | none =>
      rw [h.unused hw, ht.unused hw]
      exact congrArg System.registry (ht.added hw hz)
  unused {y} hnone := by
    cases hw : s.systems.get? y with
    | some w =>
      obtain ⟨z', hz', -⟩ := ht.old hw
      cases hz'.symm.trans hnone
    | none => rw [h.unused hw, ht.unused hw, List.append_nil]

theorem Tracks.play {us : SystemId → List Registry.Use} (h : Tracks us s) (hs : Sound (· ∈ s.held) s) (as : List Act) :
    Tracks (fun y => us y ++ s.usesIn y as) (s.play as) := by
  induction as generalizing s us with
  | nil => simpa [usesIn] using h
  | cons a as ih =>
    have hrest := ih (h.touches (touches_act hs a)) (hs.act a)
    simpa only [usesIn, List.append_assoc, play_cons] using hrest

theorem tracks_initial : Tracks (fun _ => []) initial where
  registry {y z} hz := by
    have hsystems : initial.systems = Table.insert ∅ ⟨0⟩ (System.ofConfig {}) := systems_setName ..
    rw [hsystems, Table.get?_insert] at hz
    split at hz
    · obtain rfl := Option.some.inj hz
      rfl
    · cases hz
  unused _ := rfl

theorem tracks_play (as : List Act) : Tracks (fun y => initial.usesIn y as) (initial.play as) := by
  simpa using tracks_initial.play sound_initial as

/-! ### Who asks -/

theorem isProper_of_evaluation (hs : Sound (· ∈ s.held) s) {scope : Scope} {host : Option Scope}
    (hscope : Within (· ∈ s.held) (sharedInScope scope))
    (hhost : ∀ x, host = some x → Within (· ∈ s.held) (sharedInScope x)) {flags : EvalFlags} {w : Watch} {e : Expr}
    {u : Registry.Use} (hu : u ∈ s.evaluationUses y flags scope host w e) : u.IsProper := by
  cases hz : s.systems.get? y with
  | none => simp [evaluationUses, hz] at hu
  | some z =>
    simp only [evaluationUses, hz] at hu
    obtain ⟨t, i, o, rfl, ho⟩ := Inquiry.exists_read_of_mem_uses _ hu
    have hread : .stream i o ∈ (s.evaluate y flags scope host w e).2.1 := by
      rw [evaluate_of_get? hz, Expr.evaluate_eq_run]
      exact List.mem_append_right _ (Expr.mem_filterMap_reports.2 ho)
    exact isAlive_of_read (g := s.bare) hs (fun _ => isAlive_iff.2) hscope hhost hread

theorem isProper_of_round {r : Round} {x : Binding} (hr : Ready r x) {u : Registry.Use} (hu : u ∈ roundUses r) :
    u.IsProper := by
  have hsound := hr.sound.nextRound r.id
  obtain ⟨hscope, hhost⟩ := (within_binding.1 (hsound.outside.bindings (get?_nextRound hr.get?))).2.2.2 _ hr.state
  exact isProper_of_evaluation hsound hscope hhost hu

theorem isProper_of_command (hs : Sound (· ∈ s.held) s) {c : Command} {us : List Registry.Use}
    (hc : s.commandUses? c = some (y, us)) {u : Registry.Use} (hu : u ∈ us) : u.IsProper := by
  cases c with
  | observe system stream name =>
    obtain ⟨p, -, hc⟩ := Option.bind_eq_some_iff.1 hc
    obtain ⟨i, hi, hc⟩ := Option.bind_eq_some_iff.1 hc
    obtain ⟨-, rfl⟩ := Prod.mk.inj (Option.some.inj hc)
    obtain rfl := List.mem_singleton.1 hu
    exact isAlive_iff.2 (hs.outside.stream hi)
  | evaluate expression place options =>
    obtain ⟨⟨x, z⟩, -, hc⟩ := Option.bind_eq_some_iff.1 hc
    obtain ⟨scope, hscope, hc⟩ := Option.bind_eq_some_iff.1 hc
    obtain ⟨host, hhost, hc⟩ := Option.bind_eq_some_iff.1 hc
    cases expression with
    | error e => cases hc
    | ok e =>
      obtain ⟨-, rfl⟩ := Prod.mk.inj (Option.some.inj hc)
      unfold usesAlone at hu
      split at hu
      · cases hu
      · exact isProper_of_evaluation hs (hs.outside.scope hscope) (hs.outside.host hhost) hu
  | addConverter system =>
    obtain ⟨p, -, hc⟩ := Option.bind_eq_some_iff.1 hc
    obtain ⟨-, rfl⟩ := Prod.mk.inj (Option.some.inj hc)
    cases hu
  | peek system stream =>
    obtain ⟨p, -, hc⟩ := Option.bind_eq_some_iff.1 hc
    obtain ⟨i, -, hc⟩ := Option.bind_eq_some_iff.1 hc
    obtain ⟨-, rfl⟩ := Prod.mk.inj (Option.some.inj hc)
    obtain rfl := List.mem_singleton.1 hu
    trivial
  | prune system | shutdown system =>
    obtain ⟨p, -, hc⟩ := Option.bind_eq_some_iff.1 hc
    obtain ⟨-, rfl⟩ := Prod.mk.inj (Option.some.inj hc)
    obtain rfl := List.mem_singleton.1 hu
    trivial
  | _ => cases hc

/-- Whoever has a registry asked for the observer of a stream has the stream in hand. -/
theorem isProper_of_act (hs : Sound (· ∈ s.held) s) (hd : Dated s) {us : List Registry.Use}
    (ha : s.uses? a = some (y, us)) {u : Registry.Use} (hu : u ∈ us) : u.IsProper := by
  unfold uses? at ha
  split at ha
  next r hr =>
    obtain ⟨-, rfl⟩ := Prod.mk.inj (Option.some.inj ha)
    obtain htold | ⟨t, c, hc, hbind⟩ := round?_eq_some hr
    · exact isProper_of_round (ready_of_told hs hd htold) hu
    · have hd' : Dated t := by
        obtain ⟨ts, -, rfl, -⟩ := eq_of_carriedOut? hc
        exact hd
      exact isProper_of_round (ready_of_bind (sound_carriedOut? hs hc) hd' hbind) hu
  · obtain ⟨⟨t, c⟩, hc, hused⟩ := Option.bind_eq_some_iff.1 ha
    exact isProper_of_command (sound_carriedOut? hs hc) hused hu

theorem isProper_of_run (hs : Sound (· ∈ s.held) s) (hd : Dated s) {as : List Act} {u : Registry.Use}
    (hu : u ∈ s.usesIn y as) : u.IsProper := by
  induction as generalizing s with
  | nil => cases hu
  | cons a as ih =>
    rcases List.mem_append.1 hu with hu | hu
    · unfold usesOf at hu
      split at hu
      next x us ha =>
        split at hu
        · exact isProper_of_act hs hd ha hu
        · cases hu
      · cases hu
    · obtain ⟨g, hm⟩ := moves_act hs (fun _ _ _ => False) a
      exact ih (hs.act a) (hd.moves hm) hu

/-! ### The bound -/

/-- Dead entries do not accumulate. However a registry is used, and whatever becomes of streams and observers between
one use and the next, it has no more entries than its threshold allows, which is one at least, or than were live at one
time right after an observer was handed out. What sweeps, be it on demand or before an observer is entered, leaves alone
what is live. The registry of each system in each run is what its uses in the run have made of a new one, so all of this
holds of it. -/
theorem registries_stay_small :
    (∀ (n : Nat) (us : List Registry.Use), (∀ u ∈ us, u.IsProper) →
      let r : Registry := { threshold := n }
      (r.play us).entries.size ≤ max (max n 1) (r.peak us)) ∧
    (∀ (alive : StreamId → Bool) (s : Store) (r : Registry) (i : StreamId) (o : ObserverId),
      r.entries.get? i = some o → Registry.isLiveEntry alive s i o = true →
        (r.prune alive s).entries.get? i = some o ∧
          ∀ j, (r.observerFor alive s j).2.1.entries.get? i = some o) ∧
    ∀ (as : List Act) (y : SystemId) (z : System), (initial.play as).systems.get? y = some z →
      let us := initial.usesIn y as
      let r := (System.ofConfig z.config).registry
      (∀ u ∈ us, u.IsProper) ∧ z.registry = r.play us ∧
        z.registry.entries.size ≤ max (max z.config.pruneThreshold 1) (r.peak us) := by
  refine ⟨fun n us => Registry.size_play_of_new n, fun alive s r i o ho hlive => ⟨?_, ?_⟩, fun as y z hz => ?_⟩
  · exact Registry.get?_prune_of_isLiveEntry ho hlive
  · exact Registry.get?_observerFor_of_isLiveEntry ho hlive
  · have hproper : ∀ u ∈ initial.usesIn y as, u.IsProper := fun u hu =>
      isProper_of_run sound_initial dated_initial hu
    have hregistry := (tracks_play as).registry hz
    refine ⟨hproper, hregistry, ?_⟩
    rw [hregistry]
    exact Registry.size_play_of_new _ hproper

/-- A host that observes one stream after another, with a registry that sweeps from the first entry on. -/
private def oneAfterAnother : List Act :=
  [.command (.makeSystem "small" { pruneThreshold := 1 }), .command (.makeSubject "a" none),
    .command (.observe "small" "a" (some "first")), .command (.drop .observer "first"), .command (.drop .stream "a"),
    .command (.makeSubject "b" none), .command (.observe "small" "b" (some "second"))]

/-- The registry has opened two observers and has one entry, which is live and stays. -/
theorem registries_stay_small_one :
    let s := initial.play oneAfterAnother
    let us := initial.usesIn ⟨1⟩ oneAfterAnother
    ∃ z, s.systems.get? ⟨1⟩ = some z ∧ z.registry.opened = 2 ∧ us.length = 2 ∧
      z.registry.entries.size = 1 ∧ (({ threshold := 1 } : Registry).play us).entries.size ≤ max (max 1 1) 1 ∧
      z.registry.entries.size ≤ max (max z.config.pruneThreshold 1) ((System.ofConfig z.config).registry.peak us) ∧
      (z.registry.prune s.isAlive s.store).entries.get? ⟨4⟩ = some ⟨5⟩ := by
  intro s us
  obtain ⟨hbound, hkeeps, hruns⟩ := registries_stay_small
  have hsystem : (s.systems.get? ⟨1⟩).map (fun z => (z.registry.opened, z.registry.entries.size)) = some (2, 1) := by
    decide +kernel
  obtain ⟨z, hz, hcounts⟩ := Option.map_eq_some_iff.1 hsystem
  obtain ⟨hopened, hsize⟩ := Prod.mk.inj hcounts
  have hlive : (s.systems.get? ⟨1⟩).all (fun z => z.registry.entries.get? ⟨4⟩ = some ⟨5⟩ ∧
      Registry.isLiveEntry s.isAlive s.store ⟨4⟩ ⟨5⟩ = true) = true := by decide +kernel
  rw [hz] at hlive
  obtain ⟨hentry, hlive⟩ := of_decide_eq_true hlive
  obtain ⟨hproper, -, hsmall⟩ := hruns oneAfterAnother ⟨1⟩ z hz
  have hpeak : ({ threshold := 1 } : Registry).peak us = 1 := by decide +kernel
  have hplayed : _ ≤ max (max 1 1) (({ threshold := 1 } : Registry).peak us) := hbound 1 us hproper
  rw [hpeak] at hplayed
  exact ⟨z, hz, hopened, by decide +kernel, hsize, hplayed, hsmall, (hkeeps _ _ _ _ _ hentry hlive).1⟩

end Session

end DataBinding
