import DataBinding.Proofs.Twins

/-!
# Twins evaluate alike

An evaluation asks the registry of its system for observers of streams, and these are in hand, so a registry that is
alike gives the same ones. `overlooks_rules` says so of each operation of an evaluation; it then holds of every
expression and of what is assigned through one (`Twins.evaluate`, `Twins.destination`).
-/

namespace DataBinding

namespace Session

variable {g g' : Ghost} {s t : Session} {y : SystemId} {z z' : System} {alive : StreamId → Bool} {base : Ghost}
  {ctx : EvalContext} {α β : Type}

/-- From registries that are alike the computation comes to the same, and it leaves them alike. -/
def Overlooks (alive : StreamId → Bool) (u : EvalState) (m : Eval α) : Prop :=
  ∀ r', u.registry.Alike (fun i => alive i = true) u.store r' → ∃ r'',
    m.run { u with registry := r' } = ((m.run u).1, { (m.run u).2 with registry := r'' }) ∧
      (m.run u).2.registry.Alike (fun i => alive i = true) (m.run u).2.store r''

/-- The computation is made of moves, and registries that are alike are all the same to it. -/
structure IsMadeAlike (s : Session) (y : SystemId) (z : System) (alive : StreamId → Bool) (base g : Ghost)
    (Q : Ghost → α → Prop) (m : Eval α) : Prop where
  made : IsMade s y z alive base g Q m
  overlooks {u : EvalState} : Evaluating s y z alive base g u → Overlooks alive u m

/-- An operation that leaves the registry and the observers alone. -/
theorem IsMadeAlike.of_aside {Q : Ghost → α → Prop} {m : Eval α} (hm : IsMade s y z alive base g Q m)
    (hrun : ∀ u r', m.run { u with registry := r' } = ((m.run u).1, { (m.run u).2 with registry := r' }))
    (hregistry : ∀ u, (m.run u).2.registry = u.registry)
    (hobservers : ∀ u, (m.run u).2.store.observers = u.store.observers)
    (hfresh : ∀ u, u.store.fresh ≤ (m.run u).2.store.fresh) : IsMadeAlike s y z alive base g Q m where
  made := hm
  overlooks {u} _ r' hr := by
    refine ⟨r', hrun u r', ?_⟩
    rw [hregistry]
    refine hr.later (hfresh u) (fun o _ hlive => ?_) fun _ _ => id
    unfold Store.isLive at hlive ⊢
    rwa [hobservers] at hlive

theorem IsMadeAlike.pure {Q : Ghost → α → Prop} {a : α} (h : Q g a) : IsMadeAlike s y z alive base g Q (pure a) :=
  .of_aside (.pure h) (fun _ _ => rfl) (fun _ => rfl) (fun _ => rfl) fun _ => Nat.le_refl _

theorem IsMadeAlike.bind {Q : Ghost → α → Prop} {Q' : Ghost → β → Prop} {m : Eval α} {f : α → Eval β}
    (hm : IsMadeAlike s y z alive base g Q m)
    (hf : ∀ g' a, (∀ x, g.hand x → g'.hand x) → Q g' a → IsMadeAlike s y z alive base g' Q' (f a)) :
    IsMadeAlike s y z alive base g Q' (m >>= f) where
  made := .bind hm.made fun g' a hlater ha => (hf g' a hlater ha).made
  overlooks {u} hu r' hr := by
    obtain ⟨g', hmoves, hu', ha⟩ := hm.made u hu
    obtain ⟨r'', hrun, halike⟩ := hm.overlooks hu r' hr
    rw [Eval.run_bind, Eval.run_bind, hrun]
    cases hresult : m.run u with
    | mk result u' =>
      rw [hresult] at hmoves hu' ha halike
      cases result with
      | error x => exact ⟨r'', rfl, halike⟩
      | ok a => exact (hf g' a (fun _ => hmoves.hand_mono) (ha a rfl)).overlooks hu' r'' halike

theorem isMadeAlike_readStream {i : StreamId} (hi : g.hand (.stream i) ∨ base.hand (.stream i)) :
    IsMadeAlike s y z ctx.alive base g (InHand base) (Eval.readStream ctx i) where
  made := isMade_readStream hi
  overlooks {u} hu r' hr := by
    have hhand : g.hand (.stream i) := hi.elim id hu.grown
    have hold : i.number < u.store.fresh := hu.sound.old (hu.sound.known hhand)
    obtain ⟨hstore, hobserver, halike⟩ := hr.observerFor (fun _ => id) (fun _ => id) (hu.alive hhand) hold
    refine ⟨_, ?_, halike⟩
    rw [Eval.run_readStream, Eval.run_readStream]
    simp only [hstore, hobserver]

theorem IsMadeAlike.converter {Q : Ghost → Converter → Prop} {n : String}
    (hm : IsMade s y z alive base g Q (Eval.converter ctx n)) :
    IsMadeAlike s y z alive base g Q (Eval.converter ctx n) := by
  refine .of_aside hm (fun u r' => ?_) (fun u => ?_) (fun u => ?_) fun u => ?_
  all_goals
    simp only [Eval.run_converter]
    cases ctx.converters.get? n <;> simp

/-- The rules by which evaluations do not tell registries apart that are alike. -/
theorem overlooks_rules (hlevels : ∀ l ∈ ctx.levels, base.hand (.object l.context) ∧ base.hand (.object l.override))
    (htame : ∀ n c, ctx.converters.get? n = some c → c.IsTame) :
    Eval.Rules (fun g g' : Ghost => ∀ x, g.hand x → g'.hand x) ctx ctx (· = ·) (fun _ => True)
      (InHand base) (fun g Q m _ => IsMadeAlike s y z ctx.alive base g Q m) := by
  have R := isMade_rules (s := s) (y := y) (z := z) hlevels htame
  exact
    { strict := R.strict
      scope := R.scope
      watchObject := R.watchObject
      mono := R.mono
      plain := R.plain
      items := R.items
      level := R.level
      pure := .pure
      throw := fun x => .of_aside (R.throw x) (fun _ _ => rfl) (fun _ => rfl) (fun _ => rfl) fun _ => Nat.le_refl _
      bind := .bind
      lookUp := fun h => by
        refine .of_aside (R.lookUp h) (fun u r' => ?_) (fun u => ?_) (fun u => ?_) fun u => ?_
        all_goals simp only [Eval.run_lookUp, Nat.le_refl]
      readValue := fun hw ho => by
        refine .of_aside (R.readValue hw ho) (fun u r' => ?_) (fun u => ?_) (fun u => ?_) fun u => ?_
        all_goals simp only [Eval.run_readValue, Nat.le_refl]
      readThrough := fun {g w _ v} hw hv => by
        cases hstream : v.stream? with
        | none =>
          have hmade := R.readThrough hw hv
          rw [Eval.readThrough_of_not_stream ctx w hstream] at hmade ⊢
          exact .of_aside hmade (fun _ _ => rfl) (fun _ => rfl) (fun _ => rfl) fun _ => Nat.le_refl _
        | some i =>
          obtain rfl := Value.eq_of_stream? hstream
          by_cases hnothing : w = .nothing
          · subst hnothing
            exact .pure hv
          · rw [Eval.readThrough_stream ctx hnothing]
            refine .bind (isMadeAlike_readStream (hv (.stream i) (by simp [sharedIn]))) fun g' a _ ha => .pure ?_
            exact Eval.Rules.ok_orEmpty R ha
      operate := fun {g op l r a b} hd ha hb => by
        have hmade := @Eval.Rules.operate _ _ _ _ _ _ _ _ R g op l r a b hd ha hb
        exact .of_aside hmade (fun _ _ => rfl) (fun _ => rfl) (fun _ => rfl) fun _ => Nat.le_refl _
      newObject := fun {g ks vs xs} hd hxs => by
        have hmade := @Eval.Rules.newObject _ _ _ _ _ _ _ _ R g ks vs xs hd hxs
        exact .of_aside hmade (fun _ _ => rfl) (fun _ => rfl) (fun _ => rfl) fun _ => Nat.le_succ _
      converter := fun {g e n args} hd => .converter (@Eval.Rules.converter _ _ _ _ _ _ _ _ R g e n args hd) }

/-- What twins come to when they compute with systems that are alike. -/
theorem Twins.evaluating (h : Twins g.hand s t) (hs : Sound g.hand s) (hz : s.systems.get? y = some z)
    (hz' : t.systems.get? y = some z') (ha : ∀ k, g.hand (.stream k) → s.isAlive k = true) {Q : Ghost → α → Prop}
    {m : Eval α} (hm : IsMadeAlike s y z s.isAlive g g Q m) {u u' : EvalState}
    {result result' : Except ExpressionError α} (hu : m.run { store := s.store, registry := z.registry } = (result, u))
    (hu' : m.run { store := t.store, registry := z'.registry } = (result', u')) :
    ∃ g', Moves Silent (g, s) (g', s.withEval y z u) ∧ Evaluating s y z s.isAlive g g' u ∧
      (∀ a, result = .ok a → Q g' a) ∧ result' = result ∧ u'.reads = u.reads ∧
        Twins g'.hand (s.withEval y z u) (t.withEval y z' u') := by
  have hstart := Moves.withEval hs hz
  have hevaluating : Evaluating s y z s.isAlive g g { store := s.store, registry := z.registry } :=
    ⟨hs.moves hstart, id, ha _, (fun hr => by cases hr), (fun hr => by cases hr)⟩
  obtain ⟨w, hw, halike⟩ := h.get?_system hz
  obtain rfl := Option.some.inj (hz'.symm.trans hw)
  obtain ⟨g', hmoves, hend, hq⟩ := hm.made _ hevaluating
  obtain ⟨r, hrun, hafter⟩ := hm.overlooks hevaluating z'.registry (alike_alive halike hs)
  rw [hu] at hmoves hend hq hrun hafter
  rw [h.store, hrun] at hu'
  obtain ⟨rfl, rfl⟩ := Prod.mk.inj hu'
  have hm' := hstart.trans hmoves
  refine ⟨g', hm', hend, hq, rfl, rfl, h.insert hs hm' ?_ rfl rfl ?_⟩
  · show ({ t.rest with store := u.store } : Session) = { s.rest with store := u.store }
    rw [h.rest]
  · exact { halike with
      registry := hafter.later (Nat.le_refl _) (fun _ _ => id) fun i _ hi => hend.alive hi }

theorem Twins.context_eq (h : Twins g.hand s t) (hz : z.Alike (fun i => g.hand (.stream i)) s.store z')
    (flags : EvalFlags) (scope : Scope) (host : Option Scope) :
    ({ flags, scope, host, converters := z'.converters, alive := t.isAlive } : EvalContext) =
      { flags, scope, host, converters := z.converters, alive := s.isAlive } := by
  rw [h.isAlive, hz.converters]

/-- Twins evaluate to the same and read the same. -/
theorem Twins.evaluate (h : Twins g.hand s t) (hs : Sound g.hand s) (ha : ∀ k, g.hand (.stream k) → s.isAlive k = true)
    {scope : Scope} {host : Option Scope} (hscope : Within g.hand (sharedInScope scope))
    (hhost : ∀ x, host = some x → Within g.hand (sharedInScope x)) (y : SystemId) (flags : EvalFlags) (w : Watch)
    (e : Expr) :
    ∃ g', Moves Silent (g, s) (g', (s.evaluate y flags scope host w e).1) ∧
      (∀ r ∈ (s.evaluate y flags scope host w e).2.1, Within g'.hand (sharedInSource (sourceOf r))) ∧
      (∀ i o, .stream i o ∈ (s.evaluate y flags scope host w e).2.1 →
        (s.evaluate y flags scope host w e).1.systems.entryIn y i = some o) ∧
      (∀ v, (s.evaluate y flags scope host w e).2.2 = .ok v → Within g'.hand (sharedIn v)) ∧
      (t.evaluate y flags scope host w e).2 = (s.evaluate y flags scope host w e).2 ∧
      Twins g'.hand (s.evaluate y flags scope host w e).1 (t.evaluate y flags scope host w e).1 := by
  unfold Session.evaluate
  cases hz : s.systems.get? y with
  | none =>
    rw [h.get?_system_none hz]
    exact ⟨g, .refl, by simp, by simp, fun v hv => by obtain rfl := Except.ok.inj hv; exact within_nil, rfl, h⟩
  | some z =>
    obtain ⟨z', hz', halike⟩ := h.get?_system hz
    rw [hz']
    dsimp only
    rw [h.context_eq halike]
    have hmade := (overlooks_rules (s := s) (y := y) (z := z)
      (hand_levels { flags, scope, host, converters := z.converters, alive := s.isAlive } hscope hhost)
      (hs.tame_of_get? hz)).evaluate e (fun _ _ => trivial) (a := g) (rfl : w = w)
    obtain ⟨g', hm, hend, hq, hresult, hreads, htwins⟩ := h.evaluating hs hz hz' ha hmade rfl rfl
    refine ⟨g', hm, fun r hr => hend.reads hr, fun i o ho => ?_, fun v hv => hend.inHand.1 (hq v hv),
      Prod.ext hreads hresult, htwins⟩
    refine (entryIn_insert s.systems y y _ i).trans ?_
    rw [if_pos rfl]
    exact (Registry.get?_eq_some.1 (hend.entries ho).2).1

/-! ### Assigning -/

/-- What is assigned through an expression goes to the same place, whichever of two registries is asked that are
alike. -/
theorem isMadeAlike_destination
    (hlevels : ∀ l ∈ ctx.levels, base.hand (.object l.context) ∧ base.hand (.object l.override))
    (htame : ∀ n c, ctx.converters.get? n = some c → c.IsTame) (e : Expr) {v : Value} (hv : InHand base g v) :
    IsMadeAlike s y z ctx.alive base g
      (fun g' d => InHand base g' (.object d.object) ∧ InHand base g' d.value) (e.destination ctx v) :=
  (overlooks_rules hlevels htame).destination rfl (fun _ => .converter (isMade_fromView htame _)) e
    (fun _ _ => trivial) hv

/-- Twins find the same place to assign to. -/
theorem Twins.destination (h : Twins g.hand s t) (hs : Sound g.hand s)
    (ha : ∀ k, g.hand (.stream k) → s.isAlive k = true) {scope : Scope} {host : Option Scope}
    (hscope : Within g.hand (sharedInScope scope)) (hhost : ∀ x, host = some x → Within g.hand (sharedInScope x))
    (y : SystemId) (flags : EvalFlags) (e : Expr) {v : Value} (hv : Within g.hand (sharedIn v)) :
    ∃ g', Moves Silent (g, s) (g', (s.destination y flags scope host e v).1) ∧
      (∀ d, (s.destination y flags scope host e v).2 = .ok d →
        g'.hand (.object d.object) ∧ Within g'.hand (sharedIn d.value)) ∧
      (t.destination y flags scope host e v).2 = (s.destination y flags scope host e v).2 ∧
      Twins g'.hand (s.destination y flags scope host e v).1 (t.destination y flags scope host e v).1 := by
  unfold Session.destination
  cases hz : s.systems.get? y with
  | none =>
    rw [h.get?_system_none hz]
    exact ⟨g, .refl, (fun d hd => by cases hd), rfl, h⟩
  | some z =>
    obtain ⟨z', hz', halike⟩ := h.get?_system hz
    rw [hz']
    dsimp only
    rw [h.context_eq halike]
    have hmade := isMadeAlike_destination (s := s) (y := y) (z := z)
      (hand_levels { flags, scope, host, converters := z.converters, alive := s.isAlive } hscope hhost)
      (hs.tame_of_get? hz) e (hv.mono fun _ => .inl)
    obtain ⟨g', hm, hend, hq, hresult, -, htwins⟩ := h.evaluating hs hz hz' ha hmade rfl rfl
    refine ⟨g', hm, fun d hd => ?_, hresult, htwins⟩
    obtain ⟨ho, hd⟩ := hq d hd
    exact ⟨hend.inHand.1 ho _ (by simp [sharedIn]), hend.inHand.1 hd⟩

end Session

end DataBinding
