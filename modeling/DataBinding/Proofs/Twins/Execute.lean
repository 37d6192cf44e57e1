import DataBinding.Proofs.Twins.React

/-!
# Twins answer alike

Twins answer each command of the host alike (`Twins.execute`): they stay twins, leave the same tasks and give the same
reply, except to the commands that ask for the entries of a registry. For commands that do not look at systems this
follows at once; the others are looked at one by one.
-/

namespace DataBinding

/-- Whether the reply to the command tells how many entries a registry has, dead ones among them. -/
def Command.tellsEntries : Command → Bool
  | prune _ => true
  | describe what _ => what = .system
  | _ => false

theorem rel_bind {α β γ δ : Type} {R : α → β → Prop} {R' : γ → δ → Prop} {a : Option α} {b : Option β}
    {f : α → Option γ} {f' : β → Option δ} (h : Option.Rel R a b)
    (hf : ∀ x y, a = some x → R x y → Option.Rel R' (f x) (f' y)) : Option.Rel R' (a >>= f) (b >>= f') := by
  cases h with
  | none => exact .none
  | some h => exact hf _ _ rfl h

/-- What both look up alike. -/
theorem rel_look {α γ δ : Type} {R' : γ → δ → Prop} {a b : Option α} {f : α → Option γ} {f' : α → Option δ}
    (h : b = a) (hf : ∀ x, a = some x → Option.Rel R' (f x) (f' x)) : Option.Rel R' (a >>= f) (b >>= f') := by
  subst h
  cases b with
  | none => exact .none
  | some x => exact hf x rfl

/-- Both are there or neither is, if they are the same as far as a function tells. -/
theorem rel_of_map_eq {α β : Type} {R : α → α → Prop} {f : α → β} {a a' : Option α} (h : a'.map f = a.map f)
    (hR : ∀ x x', a = some x → a' = some x' → f x' = f x → R x x') : Option.Rel R a a' := by
  cases a with
  | none =>
    rw [Option.map_none, Option.map_eq_none_iff] at h
    rw [h]
    exact .none
  | some x =>
    rw [Option.map_some] at h
    obtain ⟨x', rfl, hx'⟩ := Option.map_eq_some_iff.1 h
    exact .some (hR x x' rfl rfl hx')

namespace Session

variable {E : Effect → Prop} {g g' : Ghost} {s t u : Session} {a a' : Answer} {c : Command} {y : SystemId}
  {z z' : System}

/-- Both answers leave twins, the same tasks and the same reply, if that does not tell of entries. -/
structure AnswerAlike (c : Command) (g : Ghost) (s : Session) (a a' : Answer) : Prop where
  reaction : ReactAlike g s { session := a.session, tasks := a.tasks } { session := a'.session, tasks := a'.tasks }
  blank : a'.reply.blank = a.reply.blank
  reply : c.tellsEntries = false → a'.reply = a.reply

theorem ReactAlike.answer {r r' : Reaction} (h : ReactAlike g s r r') (reply : Reply) :
    AnswerAlike c g s (r.answer reply) (r'.answer reply) :=
  ⟨h, rfl, fun _ => rfl⟩

theorem Twins.answer (h : Twins g.hand s t) (reply : Reply) :
    AnswerAlike c g s { session := s, reply } { session := t, reply } :=
  ⟨h.still, rfl, fun _ => rfl⟩

theorem AnswerAlike.of_moves (hm : Moves E (g, s) (g', u)) (h : AnswerAlike c g' u a a') : AnswerAlike c g s a a' :=
  ⟨.of_moves hm h.reaction, h.blank, h.reply⟩

/-- An answer that is reached by moves without looking at systems. -/
theorem Twins.answer_of_recast (h : Twins g.hand s t) (hs : Sound g.hand s) (hr : AnswersWith E g s a)
    (ha : a'.recast Reply.blank ∅ = a.recast Reply.blank ∅) (hsystems : a.session.systems = s.systems)
    (hsystems' : a'.session.systems = t.systems) : AnswerAlike c g s a a' := by
  obtain ⟨g', hm, htasks⟩ := hr
  have hrest : a'.session.rest = a.session.rest := congrArg Answer.session ha
  have hreply : (a'.recast Reply.blank ∅).reply = (a.recast Reply.blank ∅).reply := congrArg Answer.reply ha
  exact ⟨⟨g', hm.any, htasks, h.later hs hm hrest hsystems hsystems', congrArg Answer.tasks ha⟩,
    congrArg Reply.blank hreply, fun _ => hreply⟩

/-- An answer that is the same whatever the systems are. -/
theorem Twins.answerWith (h : Twins g.hand s t) (hs : Sound g.hand s) {f : Session → Answer}
    (hf : ∀ u (ρ : Reply → Reply) (X : Table SystemId System), f (u.recast ρ X) = (f u).recast ρ X)
    (hr : AnswersWith E g s (f s)) : AnswerAlike c g s (f s) (f t) := by
  have hsystems : ∀ u, (f u).session.systems = u.systems :=
    systems_of_recast (f := fun u => (f u).session) fun u ρ X => congrArg Answer.session (hf u ρ X)
  refine h.answer_of_recast hs hr ?_ (hsystems s) (hsystems t)
  rw [← hf, ← hf]
  exact congrArg f h.rest

/-- An answer whose reply is known when the last thing is done. -/
theorem Twins.answerAfter (h : Twins g.hand s t) (hs : Sound g.hand s) {f : Session → Session} {p : Session → Reply}
    (hf : ∀ u (ρ : Reply → Reply) (X : Table SystemId System), f (u.recast ρ X) = (f u).recast ρ X)
    (hp : ∀ u (ρ : Reply → Reply) (X : Table SystemId System), p (u.recast ρ X) = p u)
    (hm : Moves E (g, s) (g', f s)) :
    AnswerAlike c g s { session := f s, reply := p s } { session := f t, reply := p t } := by
  refine h.answerWith hs (f := fun u => { session := f u, reply := p u }) (fun u ρ X => ?_) (.done hm)
  rw [hf, hp]
  rfl

/-- A command that does not look at systems. -/
theorem Twins.answer?_of_aside (h : Twins g.hand s t) (hs : Sound g.hand s)
    (halive : ∀ k, g.hand (.stream k) → s.isAlive k = true) (hc : c.looksAtSystems = false) :
    Option.Rel (AnswerAlike c g s) (s.answer? c) (t.answer? c) := by
  have hrest : (t.answer? c).map (·.recast Reply.blank ∅) = (s.answer? c).map (·.recast Reply.blank ∅) := by
    rw [← recast_answer? hc, ← recast_answer? hc]
    exact congrArg (answer? · c) h.rest
  have hsystems : ∀ {u : Session} {a}, u.answer? c = some a → a.session.systems = u.systems := by
    intro u a ha
    have hself : (u.recast id u.systems).answer? c = (u.answer? c).map (·.recast id u.systems) := recast_answer? hc
    rw [recast_self, ha] at hself
    exact congrArg (fun a : Answer => a.session.systems) (Option.some.inj hself)
  exact rel_of_map_eq hrest fun a a' ha ha' hsame =>
    h.answer_of_recast hs (answers hs halive ha) hsame (hsystems ha) (hsystems ha')

/-! ### Looking things up -/

theorem Twins.named? (h : Twins g.hand s t) (k : Thing) (name : String) : t.named? k name = s.named? k name := by
  unfold Session.named?
  rw [h.names]

theorem Twins.scope? (h : Twins g.hand s t) (name : String) : t.scope? name = s.scope? name := by
  unfold Session.scope?
  rw [h.named?, h.scopes]

theorem Twins.host? (h : Twins g.hand s t) (name : Option String) : t.host? name = s.host? name := by
  cases name with
  | none => rfl
  | some name =>
    unfold Session.host?
    simp only [h.scope?]

theorem Twins.binding? (h : Twins g.hand s t) (name : String) : t.binding? name = s.binding? name := by
  unfold Session.binding?
  rw [h.named?, h.bindings]

/-- What both do with the system of a name. -/
theorem Twins.rel_system (h : Twins g.hand s t) {γ δ : Type} {R : γ → δ → Prop} {name : String}
    {f : SystemId × System → Option γ} {f' : SystemId × System → Option δ}
    (hf : ∀ y z z', s.system? name = some (y, z) → s.systems.get? y = some z → t.systems.get? y = some z' →
      z.Alike (fun i => g.hand (.stream i)) s.store z' → Option.Rel R (f (y, z)) (f' (y, z'))) :
    Option.Rel R (s.system? name >>= f) (t.system? name >>= f') := by
  have hnamed := h.named? .system name
  unfold Session.system? at hf ⊢
  rw [hnamed]
  cases hy : s.named? .system name with
  | none => exact .none
  | some y =>
    simp only [hy, Option.bind_eq_bind, Option.bind_some] at hf ⊢
    cases hz : s.systems.get? y with
    | none =>
      rw [h.get?_system_none hz]
      exact .none
    | some z =>
      obtain ⟨z', hz', halike⟩ := h.get?_system hz
      rw [hz']
      exact hf y z z' (by rw [hz]; rfl) hz hz' halike

/-- The host means the same by what it writes. -/
theorem Twins.valueOf? (h : Twins g.hand s t) (hs : Sound g.hand s) (v : HostValue) :
    Option.Rel (fun p p' : Session × Value => p'.2 = p.2 ∧ ∃ g', Moves Making (g, s) (g', p.1) ∧
      Within g'.hand (sharedIn p.2) ∧ Twins g'.hand p.1 p'.1) (s.valueOf? v) (t.valueOf? v) := by
  have hrest : (t.valueOf? v).map (recastFst Reply.blank ∅) = (s.valueOf? v).map (recastFst Reply.blank ∅) := by
    rw [← recast_valueOf?, ← recast_valueOf?]
    exact congrArg (Session.valueOf? · v) h.rest
  have hsystems : ∀ {u : Session} {p}, u.valueOf? v = some p → p.1.systems = u.systems := by
    intro u p hp
    have hself : (u.recast id u.systems).valueOf? v = (u.valueOf? v).map (recastFst id u.systems) := recast_valueOf? v u
    rw [recast_self, hp] at hself
    exact congrArg (fun p : Session × Value => p.1.systems) (Option.some.inj hself)
  refine rel_of_map_eq hrest fun p p' hp hp' hsame => ?_
  obtain ⟨g', hm, hw⟩ := made_valueOf? v hs hp
  have hfst : p'.1.rest = p.1.rest := congrArg Prod.fst hsame
  have hsnd : (recastFst Reply.blank ∅ p').2 = (recastFst Reply.blank ∅ p).2 := congrArg Prod.snd hsame
  exact ⟨hsnd, g', hm, hw, h.later hs hm hfst (hsystems hp) (hsystems hp')⟩

theorem Twins.rel_value (h : Twins g.hand s t) (hs : Sound g.hand s) {γ δ : Type} {R : γ → δ → Prop} {value : HostValue}
    {f : Session × Value → Option γ} {f' : Session × Value → Option δ}
    (hf : ∀ g' u u' v, Moves Making (g, s) (g', u) → Within g'.hand (sharedIn v) → Twins g'.hand u u' →
      Option.Rel R (f (u, v)) (f' (u', v))) : Option.Rel R (s.valueOf? value >>= f) (t.valueOf? value >>= f') := by
  refine rel_bind (h.valueOf? hs value) ?_
  rintro ⟨u, v⟩ ⟨u', v'⟩ - ⟨hv, g', hm, hw, htwins⟩
  obtain rfl : v' = v := hv
  exact hf g' u u' v' hm hw htwins

/-! ### Commands that look at systems -/

theorem Twins.answerMakeSystem (h : Twins g.hand s t) (hs : Sound g.hand s) (name : String) (config : Config) :
    Option.Rel (AnswerAlike c g s) (s.answerMakeSystem name config) (t.answerMakeSystem name config) := by
  unfold Session.answerMakeSystem
  cases config.validate with
  | error e => exact .some (h.answer _)
  | ok _ =>
    let made (u : Session) : Session := { u.fresh.1 with
      systems := u.fresh.1.systems.insert ⟨u.fresh.2⟩ (System.ofConfig config) }.setName name ⟨.system, u.fresh.2⟩
    have hmade : ∀ u : Session, (made u).rest = u.rest.fresh.1.setName name ⟨.system, u.rest.fresh.2⟩ := fun u =>
      (recast_setName name _).symm
    have hsystems : ∀ u : Session, (made u).systems = u.systems.insert ⟨u.store.fresh⟩ (System.ofConfig config) :=
      fun u => systems_of_recast (f := fun v => v.setName name ⟨.system, u.fresh.2⟩)
        (fun _ _ _ => recast_setName name _) _
    have hm := Moves.newSystem hs name config
    refine .some ⟨⟨g, hm.any, by simp, ?_, rfl⟩, rfl, fun _ => rfl⟩
    refine h.insert hs hm ?_ (hsystems s) (h.store ▸ hsystems t) ⟨rfl, rfl, rfl, ?_⟩
    · exact (hmade t).trans (h.rest ▸ (hmade s).symm)
    · exact Registry.alike_of_entries rfl rfl fun i o he => by cases he

theorem Twins.answerMakeFromAttribute (h : Twins g.hand s t) (hs : Sound g.hand s) (name system attr : String)
    (expression : HostExpr) (target : String) :
    Option.Rel (AnswerAlike c g s) (s.answerMakeFromAttribute name system attr expression target)
      (t.answerMakeFromAttribute name system attr expression target) := by
  refine h.rel_system fun i z z' _ hz hz' halike => ?_
  refine rel_look (h.named? .object target) fun o ho => ?_
  cases expression with
  | error e => exact .some (h.answer _)
  | ok e =>
    dsimp only
    cases Attribute.parse attr "" with
    | error x => exact .some (h.answer _)
    | ok p =>
      dsimp only
      rw [halike.marker]
      cases Instruction.compile z.config.marker p e with
      | error x => exact .some (h.answer _)
      | ok instruction =>
        have hbinding :
            Binding.ofInstruction i z'.config o instruction = Binding.ofInstruction i z.config o instruction := by
          simp only [Binding.ofInstruction, halike.leafOnly]
        dsimp only
        rw [hbinding]
        exact .some (h.answerWith hs (f := fun u => u.addBinding name _) (fun _ _ _ => recast_addBinding name _)
          (answers_addBinding hs (hs.newBinding ho rfl rfl rfl rfl) (Option.isSome_of_eq_some hz) rfl))

theorem Twins.answerMakeBinding (h : Twins g.hand s t) (hs : Sound g.hand s) (name system : String)
    (expression : HostExpr) (target property : String) (flags : EvalFlags) :
    Option.Rel (AnswerAlike c g s) (s.answerMakeBinding name system expression target property flags)
      (t.answerMakeBinding name system expression target property flags) := by
  refine h.rel_system fun i z z' _ hz hz' _ => ?_
  refine rel_look (h.named? .object target) fun o ho => ?_
  cases expression with
  | error e => exact .some (h.answer _)
  | ok e =>
    exact .some (h.answerWith hs (f := fun u => u.addBinding name _) (fun _ _ _ => recast_addBinding name _)
      (answers_addBinding hs (hs.newBinding ho rfl rfl rfl rfl) (Option.isSome_of_eq_some hz) rfl))

theorem Twins.answerAddConverter (h : Twins g.hand s t) (hs : Sound g.hand s) (system name : String)
    (k : StockConverter) :
    Option.Rel (AnswerAlike c g s) (s.answerAddConverter system name k) (t.answerAddConverter system name k) := by
  refine h.rel_system fun i z z' hsystem hz hz' halike => ?_
  obtain ⟨g', hm, htasks⟩ := @answers_addConverter _ _ hs system name k _ (by
    rw [Session.answerAddConverter, hsystem]
    rfl)
  refine .some ⟨⟨g', hm.any, htasks, h.insert hs hm h.rest rfl rfl ?_, rfl⟩, rfl, fun _ => rfl⟩
  have hlater := alike_of_moves halike hs hm
  exact { hlater with converters := by rw [halike.converters] }

/-- An observer is handed out to both. -/
theorem Twins.observerFor (h : Twins g.hand s t) (hs : Sound g.hand s)
    (halive : ∀ k, g.hand (.stream k) → s.isAlive k = true) (hz : s.systems.get? y = some z)
    (hz' : t.systems.get? y = some z') {i : StreamId} (hi : g.hand (.stream i)) :
    (z'.registry.observerFor t.isAlive t.store i).2.2 = (z.registry.observerFor s.isAlive s.store i).2.2 ∧
      ∃ g', Moves Silent (g, s) (g', s.withEval y z
        { store := (z.registry.observerFor s.isAlive s.store i).1
          registry := (z.registry.observerFor s.isAlive s.store i).2.1 }) ∧
        Twins g'.hand
          (s.withEval y z
            { store := (z.registry.observerFor s.isAlive s.store i).1
              registry := (z.registry.observerFor s.isAlive s.store i).2.1 })
          (t.withEval y z'
            { store := (z'.registry.observerFor t.isAlive t.store i).1
              registry := (z'.registry.observerFor t.isAlive t.store i).2.1 }) := by
  obtain ⟨w, hw, halike⟩ := h.get?_system hz
  obtain rfl := Option.some.inj (hz'.symm.trans hw)
  have hold : i.number < s.store.fresh := hs.old (hs.known hi)
  obtain ⟨opened, hm⟩ := Moves.observerFor hs hz halive hi
  obtain ⟨hstore, hobserver, hregistry⟩ := halike.registry.observerFor halive halive hi hold
  rw [h.isAlive, h.store]
  refine ⟨hobserver, _, hm, h.insert hs hm ?_ rfl rfl { halike with registry := hregistry }⟩
  exact congrArg₂ (fun (u : Session) (store : Store) => { u with store }) h.rest hstore

theorem Twins.answerObserve (h : Twins g.hand s t) (hs : Sound g.hand s)
    (halive : ∀ k, g.hand (.stream k) → s.isAlive k = true) (system stream : String) (name : Option String) :
    Option.Rel (AnswerAlike c g s) (s.answerObserve system stream name) (t.answerObserve system stream name) := by
  refine h.rel_system fun i z z' _ hz hz' _ => ?_
  refine rel_look (h.named? .stream stream) fun j hj => ?_
  obtain ⟨hobserver, g', hm, htwins⟩ := h.observerFor hs halive hz hz' (hs.outside.stream hj)
  have hs' := hs.moves hm
  dsimp only
  rw [hobserver]
  generalize (z.registry.observerFor s.isAlive s.store j).2.2 = o
  cases name with
  | some name =>
    exact .some (.of_moves hm (htwins.answerAfter hs' (E := Silent) (f := fun u => u.setName name o.ref)
      (p := fun u => .names (u.namesOf o.ref)) (fun _ _ _ => recast_setName name o.ref) (fun _ _ _ => rfl)
      (.setNameOf hs' (by decide))))
  | none =>
    exact .some (.of_moves hm (htwins.answerAfter hs' (E := Silent) (f := fun u => u.letGoObserver o)
      (p := fun u => .names (u.namesOf o.ref)) (fun _ _ _ => recast_letGoObserver o) (fun _ _ _ => rfl)
      (.letGoObserver o)))

theorem Twins.answerPeek (h : Twins g.hand s t) (hs : Sound g.hand s) (system stream : String) :
    Option.Rel (AnswerAlike c g s) (s.answerPeek system stream) (t.answerPeek system stream) := by
  refine h.rel_system fun i z z' _ hz hz' halike => ?_
  refine rel_look (h.named? .stream stream) fun j hj => ?_
  have hreply : (z'.registry.get? t.store j).map (fun o => t.namesOf o.ref) =
      (z.registry.get? s.store j).map fun o => s.namesOf o.ref := by
    rw [h.store, halike.registry.get? (hs.outside.stream hj)]
    unfold Session.namesOf
    rw [h.names]
  rw [hreply]
  exact .some (h.answer _)

theorem Twins.answerPrune (h : Twins g.hand s t) (hs : Sound g.hand s)
    (halive : ∀ k, g.hand (.stream k) → s.isAlive k = true) (system : String) :
    Option.Rel (AnswerAlike (.prune system) g s) (s.answerPrune system) (t.answerPrune system) := by
  refine h.rel_system fun i z z' hsystem hz hz' halike => ?_
  obtain ⟨g', hm, htasks⟩ := answers_prune hs halive (by rw [Session.answerPrune, hsystem]; rfl)
  have hblank : ∀ a b : Nat, (Reply.count b).blank = (Reply.count a).blank := fun _ _ => rfl
  refine .some ⟨⟨g', hm.any, htasks, ?_, rfl⟩, hblank .., fun hc => Bool.noConfusion hc⟩
  have hpruned : { z with registry := z.registry.prune s.isAlive s.store }.Alike (fun i => g.hand (.stream i)) s.store
      { z' with registry := z'.registry.prune t.isAlive t.store } := by
    rw [h.isAlive, h.store]
    exact { halike with registry := halike.registry.prune halive }
  exact h.insert hs hm h.rest rfl rfl (alike_of_moves hpruned hs hm)

theorem Twins.answerShutdown (h : Twins g.hand s t) (hs : Sound g.hand s)
    (halive : ∀ k, g.hand (.stream k) → s.isAlive k = true) (system : String) :
    Option.Rel (AnswerAlike c g s) (s.answerShutdown system) (t.answerShutdown system) := by
  refine h.rel_system fun i z z' _ hz hz' halike => ?_
  have hm := Moves.shutdown hs halive hz
  have hlive : z'.registry.liveEntries t.isAlive t.store = z.registry.liveEntries s.isAlive s.store := by
    rw [h.isAlive, h.store, (alike_alive halike hs).liveEntries_eq]
  have hdestroy : ∀ (u : Session) (os : List ObserverId), (os.foldl destroy u).rest = os.foldl destroy u.rest := by
    intro u os
    induction os generalizing u with
    | nil => rfl
    | cons o os ih =>
      rw [List.foldl_cons, List.foldl_cons, ih]
      exact congrArg (os.foldl destroy) (recast_destroy o).symm
  refine .some ⟨⟨g, hm.any, by simp, ?_, rfl⟩, rfl, fun _ => rfl⟩
  refine h.insert hs hm ?_ (systems_destroyAll ..) (systems_destroyAll ..) { halike with registry := ?_ }
  · unfold Session.shutdown
    rw [hdestroy, hdestroy, hlive]
    exact congrArg (List.foldl destroy · _) h.rest
  · exact Registry.alike_of_entries halike.registry.opened rfl fun j o he => by cases he

theorem Twins.evaluateAlone (h : Twins g.hand s t) (hs : Sound g.hand s)
    (halive : ∀ k, g.hand (.stream k) → s.isAlive k = true) (hz : z.Alike (fun i => g.hand (.stream i)) s.store z')
    {scope : Scope} {host : Option Scope} (hscope : Within g.hand (sharedInScope scope))
    (hhost : ∀ x, host = some x → Within g.hand (sharedInScope x)) (place : Place) (options : EvalOptions) (e : Expr) :
    AnswerAlike c g s (s.evaluateAlone y z place scope host options e)
      (t.evaluateAlone y z' place scope host options e) := by
  unfold Session.evaluateAlone
  rw [hz.marker]
  dsimp only
  generalize (if options.rebases = true then e.rebase z.config.marker else .ok e) = rebased
  cases rebased with
  | error x => exact h.answer _
  | ok e =>
    dsimp only
    generalize (if options.tracks = true then Watch.everything else .nothing) = w
    obtain ⟨g', hm, -, -, -, hresult, htwins⟩ := h.evaluate hs halive hscope hhost y place.flags w e
    rcases hout : s.evaluate y place.flags scope host w e with ⟨u, reads, result⟩
    rcases hout' : t.evaluate y place.flags scope host w e with ⟨u', outcome⟩
    rw [hout] at hm
    rw [hout, hout'] at hresult htwins
    obtain rfl : outcome = (reads, result) := hresult
    let seen (u : Session) := if options.tracks then some (reads.map u.readView) else none
    have hletGo : Moves Silent (g', u) (g', u.letGoRead reads) := .letGoRead reads
    have hanswer {p : Session → Reply} (hp : ∀ u (ρ : Reply → Reply) X, p (u.recast ρ X) = p u) :=
      htwins.answerAfter (c := c) (hs.moves hm) (f := fun u => u.letGoRead reads) (fun _ _ _ => recast_letGoRead reads)
        hp hletGo
    refine .of_moves hm ?_
    cases result with
    | ok v => exact hanswer (p := fun u => .evaluated (u.view v) v.display (seen u)) fun _ _ _ => rfl
    | error x => exact hanswer (p := fun u => .notEvaluated x (seen u)) fun _ _ _ => rfl

theorem Twins.answerEvaluate (h : Twins g.hand s t) (hs : Sound g.hand s)
    (halive : ∀ k, g.hand (.stream k) → s.isAlive k = true) (expression : HostExpr) (place : Place)
    (options : EvalOptions) :
    Option.Rel (AnswerAlike c g s) (s.answerEvaluate expression place options)
      (t.answerEvaluate expression place options) := by
  refine h.rel_system fun y z z' _ _ _ halike => ?_
  refine rel_look (h.scope? place.scope) fun scope hscope => ?_
  refine rel_look (h.host? place.host) fun host hhost => ?_
  cases expression with
  | error e => exact .some (h.answer _)
  | ok e =>
    exact .some (h.evaluateAlone hs halive halike (hs.outside.scope hscope) (hs.outside.host hhost) place options e)

theorem Twins.answerAssign (h : Twins g.hand s t) (hs : Sound g.hand s)
    (halive : ∀ k, g.hand (.stream k) → s.isAlive k = true) (expression : HostExpr) (place : Place)
    (value : HostValue) :
    Option.Rel (AnswerAlike c g s) (s.answerAssign expression place value) (t.answerAssign expression place value) := by
  refine h.rel_system fun y _ _ _ _ _ _ => ?_
  refine rel_look (h.scope? place.scope) fun scope hscope => ?_
  refine rel_look (h.host? place.host) fun host hhost => ?_
  cases expression with
  | error e => exact .some (h.answer _)
  | ok e =>
    refine h.rel_value hs fun g' u u' v hm hv htwins => ?_
    have hmono : ∀ {xs : List Shared}, Within g.hand xs → Within g'.hand xs :=
      fun hx => hx.mono fun _ => hm.making.hand_mono
    obtain ⟨herror, hok⟩ := htwins.assign (hs.moves hm) (isAlive_making hs halive hm)
      (hmono (hs.outside.scope hscope)) (fun x hx => hmono (hs.outside.host hhost x hx)) y place.flags e hv
    dsimp only
    cases hr : u.assign y place.flags scope host e v with
    | error x =>
      rw [herror x hr]
      exact .some (.of_moves hm (htwins.answer _))
    | ok r =>
      obtain ⟨r', hr', halike⟩ := hok r hr
      rw [hr']
      exact .some (.of_moves hm (halike.answer _))

theorem Twins.answerBind (h : Twins g.hand s t) (hs : Sound g.hand s) (binding scope : String) (host : Option String) :
    Option.Rel (AnswerAlike c g s) (s.answerBind binding scope host) (t.answerBind binding scope host) := by
  refine rel_look (h.binding? binding) ?_
  rintro ⟨b, x⟩ hb
  refine rel_look (h.scope? scope) fun scope' hscope => ?_
  refine rel_look (h.host? host) fun host' hhost => ?_
  obtain ⟨halike, hresult⟩ := h.bind hs (get?_of_binding? hb) (y := { scope := scope', host := host' })
    (hs.outside.scope hscope) (hs.outside.host hhost)
  cases hr : s.bind b x { scope := scope', host := host' } with
  | mk r result =>
    cases hr' : t.bind b x { scope := scope', host := host' } with
    | mk r' result' =>
      rw [hr, hr'] at halike hresult
      obtain rfl : result' = result := hresult
      cases result' with
      | ok _ => exact .some ((halike.andThen (by simp [sharedInTask]) rfl).answer _)
      | error e => exact .some (halike.answer _)

theorem Twins.answerUpdateSource (h : Twins g.hand s t) (hs : Sound g.hand s)
    (halive : ∀ k, g.hand (.stream k) → s.isAlive k = true) (binding : String) (value : HostValue) :
    Option.Rel (AnswerAlike c g s) (s.answerUpdateSource binding value) (t.answerUpdateSource binding value) := by
  refine rel_look (h.binding? binding) ?_
  rintro ⟨b, x⟩ hb
  refine h.rel_value hs fun g' u u' v hm hv htwins => ?_
  have hx : u.bindings.get? b = some x := by
    obtain ⟨objects, fresh, rfl, -⟩ := making_eq hm
    exact get?_of_binding? hb
  obtain ⟨herror, hok⟩ := htwins.updateSource (hs.moves hm) (isAlive_making hs halive hm) hx hv
  dsimp only
  cases hr : u.updateSource x v with
  | error e =>
    rw [herror e hr]
    exact .some (.of_moves hm (htwins.answer _))
  | ok r =>
    obtain ⟨r', hr', halike⟩ := hok r hr
    rw [hr']
    exact .some (.of_moves hm ((halike.andThen (by simp [sharedInTask]) rfl).answer _))

/-- Descriptions of systems may tell twins apart. -/
theorem Twins.answerDescribeSystem (h : Twins g.hand s t) (name : String) :
    Option.Rel (AnswerAlike (.describe .system name) g s) (s.answerDescribe .system name)
      (t.answerDescribe .system name) := by
  have hdescribed : Option.Rel (fun _ _ => True) (s.describe? name .system) (t.describe? name .system) :=
    h.rel_system fun _ _ _ _ _ _ _ => .some trivial
  exact rel_bind hdescribed fun _ _ _ _ => .some ⟨h.still, rfl, fun hc => Bool.noConfusion hc⟩

/-! ### All commands -/

theorem Twins.answer? (h : Twins g.hand s t) (hs : Sound g.hand s)
    (halive : ∀ k, g.hand (.stream k) → s.isAlive k = true) (c : Command) :
    Option.Rel (AnswerAlike c g s) (s.answer? c) (t.answer? c) := by
  by_cases hc : c.looksAtSystems = false
  · exact h.answer?_of_aside hs halive hc
  cases c with
  | makeSystem name config => exact h.answerMakeSystem hs name config
  | makeFromAttribute name system attr expression target =>
    exact h.answerMakeFromAttribute hs name system attr expression target
  | makeBinding name system expression target property flags =>
    exact h.answerMakeBinding hs name system expression target property flags
  | addConverter system name converter => exact h.answerAddConverter hs system name converter
  | observe system stream name => exact h.answerObserve hs halive system stream name
  | peek system stream => exact h.answerPeek hs system stream
  | prune system => exact h.answerPrune hs halive system
  | shutdown system => exact h.answerShutdown hs halive system
  | evaluate expression place options => exact h.answerEvaluate hs halive expression place options
  | assign expression place value => exact h.answerAssign hs halive expression place value
  | bind binding scope host => exact h.answerBind hs binding scope host
  | updateSource binding value => exact h.answerUpdateSource hs halive binding value
  | describe what name =>
    cases what with
    | system => exact h.answerDescribeSystem name
    | _ => exact absurd rfl hc
  | _ => exact absurd rfl hc

/-- Twins answer each command alike. -/
theorem Twins.execute (h : Twins g.hand s t) (hs : Sound g.hand s)
    (halive : ∀ k, g.hand (.stream k) → s.isAlive k = true) (c : Command) :
    AnswerAlike c g s (s.execute c) (t.execute c) := by
  have hanswer := h.answer? hs halive c
  unfold Session.execute
  cases ha : s.answer? c with
  | none =>
    rw [ha] at hanswer
    cases hb : t.answer? c with
    | none => exact h.answer _
    | some a' =>
      rw [hb] at hanswer
      cases hanswer
  | some a =>
    rw [ha] at hanswer
    cases hb : t.answer? c with
    | none =>
      rw [hb] at hanswer
      cases hanswer
    | some a' =>
      rw [hb] at hanswer
      cases hanswer with
      | some halike => exact halike

end Session

end DataBinding
