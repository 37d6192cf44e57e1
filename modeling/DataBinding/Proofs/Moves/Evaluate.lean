import DataBinding.Proofs.EvaluationRules
import DataBinding.Proofs.Moves

/-!
# Evaluating is made of moves

An evaluation opens observers and makes objects. `isMade_rules` says so of each operation of an evaluation, so it holds
of every expression (`Moves.evaluate`) and of what is assigned through one (`Moves.destination`). The result refers to
nothing but what is in hand then.
-/

namespace DataBinding

namespace Session

variable {g g' : Ghost} {s : Session}

theorem sharedInAll_eq (vs : List Value) : sharedInAll vs = vs.flatMap sharedIn := by
  induction vs with
  | nil => rfl
  | cons v vs ih => simp only [sharedInAll, ih, List.flatMap_cons]

theorem mem_values_ofList {κ α : Type} [Ord κ] [DecidableEq κ] [Std.TransOrd κ] [Std.LawfulEqOrd κ] {es : List (κ × α)}
    {a : α} (h : a ∈ (Table.ofList es).values) : ∃ k, (k, a) ∈ es := by
  suffices hgen : ∀ t : Table κ α, a ∈ (es.foldl (fun t e => t.insert e.1 e.2) t).values →
      a ∈ t.values ∨ ∃ k, (k, a) ∈ es from (hgen ∅ h).resolve_left (by simp [Table.values, EmptyCollection.emptyCollection])
  clear h
  induction es with
  | nil => exact fun t h => .inl h
  | cons e es ih =>
    intro t h
    rcases ih _ h with h | ⟨k, h⟩
    · obtain ⟨k, hk⟩ := Table.mem_values.1 h
      rw [Table.get?_insert] at hk
      split at hk
      · obtain rfl : e.2 = a := by simpa using hk
        exact .inr ⟨e.1, by simp⟩
      · exact .inl (Table.mem_values_of_get? hk)
    · exact .inr ⟨k, List.mem_cons_of_mem _ h⟩

/-- The session as an evaluation with the system `z` has it. -/
def withEval (s : Session) (y : SystemId) (z : System) (t : EvalState) : Session :=
  { s with store := t.store, systems := s.systems.insert y { z with registry := t.registry } }

theorem entryIn_insert (t : Table SystemId System) (y y' : SystemId) (z : System) (i : StreamId) :
    (t.insert y z).entryIn y' i = if y = y' then z.registry.entries.get? i else t.entryIn y' i := by
  simp only [Table.entryIn, Table.get?_insert]
  split <;> rfl

theorem converterIn_insert (t : Table SystemId System) (y y' : SystemId) (z : System) (n : String) :
    (t.insert y z).converterIn y' n = if y = y' then z.converters.get? n else t.converterIn y' n := by
  simp only [Table.converterIn, Table.get?_insert]
  split <;> rfl

theorem entryIn_of_get? {t : Table SystemId System} {y : SystemId} {z : System} (h : t.get? y = some z) (i : StreamId) :
    t.entryIn y i = z.registry.entries.get? i := by
  simp [Table.entryIn, h]

theorem converterIn_of_get? {t : Table SystemId System} {y : SystemId} {z : System} (h : t.get? y = some z)
    (n : String) : t.converterIn y n = z.converters.get? n := by
  simp [Table.converterIn, h]

/-- A system's registry may forget entries of observers that are gone and of streams that are out of reach. -/
theorem Moves.registry (h : Sound g.hand s) {y : SystemId} {z : System} (hz : s.systems.get? y = some z) {r : Registry}
    (he : ∀ i o, r.entries.get? i = some o → z.registry.entries.get? i = some o)
    (hl : ∀ i o, z.registry.entries.get? i = some o → s.store.isLive o = true → g.hand (.stream i) →
      r.entries.get? i = some o) :
    Moves Silent (g, s) (g, { s with systems := s.systems.insert y { z with registry := r } }) := by
  refine .silent (.systems ?_ ?_ ?_ ?_ ?_)
  · intro y' hy'
    rw [Table.get?_insert] at hy'
    split at hy'
    next hyy =>
      subst hyy
      exact h.systemsOld (by simp [hz])
    · exact h.systemsOld hy'
  · intro y' hy'
    rw [Table.get?_insert]
    split
    · rfl
    · exact hy'
  · intro y' n c hc
    rw [converterIn_insert] at hc
    split at hc
    next hyy =>
      subst hyy
      exact .inr (by rwa [converterIn_of_get? hz])
    · exact .inr hc
  · intro y' i o ho
    rw [entryIn_insert] at ho
    split at ho
    next hyy =>
      subst hyy
      rw [entryIn_of_get? hz]
      exact he i o ho
    · exact ho
  · intro y' i o ho hlive hi
    rw [entryIn_insert]
    split
    next hyy =>
      subst hyy
      rw [entryIn_of_get? hz] at ho
      exact hl i o ho hlive hi
    · exact ho

theorem Moves.withEval (h : Sound g.hand s) {y : SystemId} {z : System} (hz : s.systems.get? y = some z) :
    Moves Silent (g, s) (g, s.withEval y z { store := s.store, registry := z.registry }) :=
  .registry h hz (fun _ _ => id) (fun _ _ ho _ _ => ho)

theorem get?_withEval (s : Session) (y : SystemId) (z : System) (t : EvalState) :
    (s.withEval y z t).systems.get? y = some { z with registry := t.registry } := by
  simp [Session.withEval, Table.get?_insert]

/-- The observer of a stream is handed out, and opened if there is none. -/
theorem Moves.observerFor (h : Sound g.hand s) {y : SystemId} {z : System} (hz : s.systems.get? y = some z)
    {alive : StreamId → Bool} (ha : ∀ k, g.hand (.stream k) → alive k = true) {i : StreamId} (hi : g.hand (.stream i)) :
    ∃ opened, Moves Silent (g, s) ({ g with opened },
      s.withEval y z
        { store := (z.registry.observerFor alive s.store i).1
          registry := (z.registry.observerFor alive s.store i).2.1 }) := by
  cases hr : z.registry.get? s.store i with
  | some o =>
    rw [Registry.observerFor_of_get? hr]
    exact ⟨g.opened, .withEval h hz⟩
  | none =>
    rw [Registry.observerFor_of_none hr]
    dsimp only
    have hsweep : Moves Silent (g, s)
        (g, s.withEval y z ⟨s.store, z.registry.swept alive (s.store.openObserver i).1, []⟩) := by
      refine .registry h hz (fun j o ho => Registry.entries_swept ho) fun j o ho hlive hj => ?_
      rcases Registry.get?_swept alive (s.store.openObserver i).1 z.registry j with he | ⟨_, hd⟩
      · rw [he, ho]
      · have hdead := hd o ho
        simp [Registry.isLiveEntry, Store.isLive_openObserver, hlive, ha j hj] at hdead
    refine ⟨fun y' j o => g.opened y' j o ∨ y' = y ∧ j = i ∧ o = ⟨s.store.fresh⟩, hsweep.trans (.silent ?_)⟩
    refine Move.opening (y := y) (i := i) hi (by simp [get?_withEval]) ?_ ?_ ?_ ?_
    · intro o ho
      rw [entryIn_of_get? (get?_withEval ..)] at ho
      exact Registry.isLive_of_get?_none hr (Registry.entries_swept ho)
    · intro y'
      simp only [Session.withEval, Table.get?_insert]
      split <;> rfl
    · intro y' n
      simp only [Session.withEval, converterIn_insert]
    · intro y' j
      simp only [Session.withEval, entryIn_insert, Table.get?_insert]
      by_cases hy : y = y'
      · by_cases hj : i = j <;> simp [hy, hj]
      · simp [hy]

/-- A system evaluates with what is in hand. -/
structure Evaluating (s : Session) (y : SystemId) (z : System) (alive : StreamId → Bool) (base g : Ghost)
    (t : EvalState) : Prop where
  sound : Sound g.hand (s.withEval y z t)
  grown {x : Shared} : base.hand x → g.hand x
  alive {k : StreamId} : g.hand (.stream k) → alive k = true
  reads {r : Read} : r ∈ t.reads → Within g.hand (sharedInSource (sourceOf r))
  /-- The registry goes on to have the observers that were read through. -/
  entries {k : StreamId} {o : ObserverId} : .stream k o ∈ t.reads →
    g.hand (.stream k) ∧ t.registry.get? t.store k = some o

/-- The computation is made of moves, and of its result `Q` holds. -/
def IsMade (s : Session) (y : SystemId) (z : System) (alive : StreamId → Bool) (base : Ghost) {α : Type} (g : Ghost)
    (Q : Ghost → α → Prop) (m : Eval α) : Prop :=
  ∀ t, Evaluating s y z alive base g t →
    ∃ g', Moves Silent (g, s.withEval y z t) (g', s.withEval y z (m.run t).2) ∧
      Evaluating s y z alive base g' (m.run t).2 ∧ ∀ a, (m.run t).1 = .ok a → Q g' a

/-- What is in a value is in hand; what was in hand at first still counts. -/
def InHand (base g : Ghost) (v : Value) : Prop := Within (fun x => g.hand x ∨ base.hand x) (sharedIn v)

theorem Evaluating.inHand {y : SystemId} {z : System} {alive : StreamId → Bool} {base g : Ghost} {t : EvalState}
    (h : Evaluating s y z alive base g t) {v : Value} : InHand base g v ↔ Within g.hand (sharedIn v) := by
  have : ∀ x, (g.hand x ∨ base.hand x) ↔ g.hand x := fun x => or_iff_left_of_imp h.grown
  simp only [InHand, Within, this]

theorem Evaluating.read {y : SystemId} {z : System} {alive : StreamId → Bool} {base g : Ghost} {t : EvalState}
    (h : Evaluating s y z alive base g t) {reads : List Read}
    (hr : ∀ r ∈ reads, r ∈ t.reads ∨ ∃ o n, r = .property o n ∧ g.hand (.object o)) :
    Evaluating s y z alive base g { t with reads } where
  sound := h.sound
  grown := h.grown
  alive := h.alive
  reads hm := by
    rcases hr _ hm with hm | ⟨o, n, rfl, ho⟩
    · exact h.reads hm
    · intro x hx
      obtain rfl := List.mem_singleton.1 hx
      exact ho
  entries hm := by
    rcases hr _ hm with hm | ⟨o, n, hne, -⟩
    · exact h.entries hm
    · cases hne

theorem isMade_readStream {y : SystemId} {z : System} {base g : Ghost} {ctx : EvalContext} {i : StreamId}
    (hi : g.hand (.stream i) ∨ base.hand (.stream i)) :
    IsMade s y z ctx.alive base g (InHand base) (Eval.readStream ctx i) := by
  intro t ht
  have hi := hi.elim id ht.grown
  obtain ⟨opened, hm⟩ := Moves.observerFor ht.sound (get?_withEval s y z t) (fun k => ht.alive) hi
  simp only [Session.withEval, Table.insert_insert] at hm
  rw [Eval.run_readStream]
  have hs := ht.sound.moves hm
  have hcached : Within g.hand (sharedIn (Eval.cached (t.registry.observerFor ctx.alive t.store i).1
      (t.registry.observerFor ctx.alive t.store i).2.2)) := by
    unfold Eval.cached
    split
    next x hx => exact hs.outside.observers hx
    · exact fun _ h => by cases h
  refine ⟨_, hm, ⟨hs, ht.grown, ht.alive, fun {r} hr => ?_, fun {k o} hr => ?_⟩, fun v hv => ?_⟩
  · rcases List.mem_append.1 hr with hr | hr
    · exact ht.reads hr
    · obtain rfl := List.mem_singleton.1 hr
      exact fun _ h => by cases h
  · rcases List.mem_append.1 hr with hr | hr
    · obtain ⟨hk, ho⟩ := ht.entries hr
      exact ⟨hk, Registry.get?_observerFor_of_get? ho (ht.alive hk)⟩
    · obtain ⟨rfl, rfl⟩ := Read.stream.inj (List.mem_singleton.1 hr)
      exact ⟨hi, Registry.get?_observerFor ..⟩
  · obtain rfl := Except.ok.inj hv
    exact hcached.mono fun _ => .inl

theorem IsMade.pure {y : SystemId} {z : System} {alive : StreamId → Bool} {base : Ghost} {α : Type}
    {Q : Ghost → α → Prop} {r : α} (h : Q g r) : IsMade s y z alive base g Q (pure r) :=
  fun _ ht => ⟨g, .refl, ht, fun _ hr => Except.ok.inj hr ▸ h⟩

theorem IsMade.bind {y : SystemId} {z : System} {alive : StreamId → Bool} {base : Ghost} {α β : Type}
    {Q : Ghost → α → Prop} {Q' : Ghost → β → Prop} {m : Eval α} {f : α → Eval β} (hm : IsMade s y z alive base g Q m)
    (hf : ∀ g' r, (∀ x, g.hand x → g'.hand x) → Q g' r → IsMade s y z alive base g' Q' (f r)) :
    IsMade s y z alive base g Q' (m >>= f) := by
  intro t ht
  obtain ⟨g', hmoves, ht', hq⟩ := hm t ht
  rw [Eval.run_bind]
  cases hr : m.run t with
  | mk r t' =>
    rw [hr] at hmoves ht' hq
    cases r with
    | error x => exact ⟨g', hmoves, ht', fun _ h => by cases h⟩
    | ok r =>
      obtain ⟨g'', hmoves', ht'', hq'⟩ := hf g' r (fun _ => hmoves.hand_mono) (hq r rfl) t' ht'
      exact ⟨g'', hmoves.trans hmoves', ht'', hq'⟩

/-- An operation that only reports reads. -/
theorem IsMade.reads {y : SystemId} {z : System} {alive : StreamId → Bool} {base : Ghost} {α : Type}
    {Q : Ghost → α → Prop} {m : Eval α}
    (h : ∀ t, Evaluating s y z alive base g t → ∃ reads, (m.run t).2 = { t with reads } ∧
      (∀ r ∈ reads, r ∈ t.reads ∨ ∃ o n, r = .property o n ∧ g.hand (.object o)) ∧
      ∀ r, (m.run t).1 = .ok r → Q g r) : IsMade s y z alive base g Q m := by
  intro t ht
  obtain ⟨reads, hstate, hreads, hq⟩ := h t ht
  rw [hstate]
  exact ⟨g, .refl, ht.read hreads, hq⟩

/-- The rules by which evaluations are made of moves. -/
theorem isMade_rules {y : SystemId} {z : System} {base : Ghost} {ctx : EvalContext}
    (hlevels : ∀ l ∈ ctx.levels, base.hand (.object l.context) ∧ base.hand (.object l.override))
    (htame : ∀ n c, ctx.converters.get? n = some c → c.IsTame) :
    Eval.Rules (fun g g' : Ghost => ∀ x, g.hand x → g'.hand x) ctx ctx (· = ·) (fun _ => True)
      (InHand base) (fun g Q m _ => IsMade s y z ctx.alive base g Q m) where
  strict := rfl
  scope := rfl
  watchObject h := by rw [h]
  mono hlater hv := hv.mono fun x => Or.imp (hlater x) id
  plain hv := by simp [InHand, hv, Within]
  items := by simp only [InHand, sharedIn, sharedInAll_eq, Within.flatMap, implies_true]
  level hl := by
    intro x hx
    obtain rfl := List.mem_singleton.1 hx
    exact .inr (hlevels _ (Eval.mem_levels_of_ancestor? hl)).1
  pure := .pure
  throw x := .reads fun t _ => ⟨t.reads, rfl, fun _ => .inl, fun _ h => by cases h⟩
  bind := .bind
  lookUp _ := by
    refine .reads fun t _ => ⟨t.reads, by rw [Eval.run_lookUp], fun _ => .inl, fun o? ho o hso x hx => ?_⟩
    rw [Eval.run_lookUp] at ho
    obtain rfl := Except.ok.inj ho
    obtain rfl := List.mem_singleton.1 hx
    obtain ⟨l, hl, rfl | rfl⟩ := Eval.exists_level_of_located hso
    · exact .inr (hlevels l hl).1
    · exact .inr (hlevels l hl).2
  readValue {g w _ o n} _ ho := by
    refine .reads fun t ht => ⟨Eval.reported w t.reads o n, by rw [Eval.run_readValue], ?_, ?_⟩
    · intro r hr
      unfold Eval.reported at hr
      split at hr
      · rcases List.mem_append.1 hr with hr | hr
        · exact .inl hr
        · exact .inr ⟨o, n, List.mem_singleton.1 hr, ht.inHand.1 ho (.object o) (by simp [sharedIn])⟩
      · exact .inl hr
    · intro v hv
      rw [Eval.run_readValue] at hv
      obtain rfl := Except.ok.inj hv
      have hc := ht.sound.closed (ht.inHand.1 ho (.object o) (by simp [sharedIn]))
      refine ht.inHand.2 fun x hx => ?_
      unfold Store.property Object.get at hx
      cases hp : (t.store.object o).properties.get? n with
      | none => simp [hp, sharedIn] at hx
      | some v =>
        rw [hp] at hx
        exact hc x (List.mem_flatMap.2 ⟨v, Table.mem_values_of_get? hp, hx⟩)
  readThrough {g w _ v} _ hv := by
    cases hs : v.stream? with
    | none =>
      rw [Eval.readThrough_of_not_stream ctx w hs]
      apply IsMade.pure
      unfold Value.orEmpty
      split
      · exact fun _ h => by cases h
      · exact hv
    | some i =>
      obtain rfl := Value.eq_of_stream? hs
      have hg := hv (.stream i) (by simp [sharedIn])
      by_cases hw : w = .nothing
      · subst hw
        exact .pure hv
      · rw [Eval.readThrough_stream ctx hw]
        refine .bind (isMade_readStream hg) fun g' v _ hv => .pure ?_
        unfold Value.orEmpty
        split
        · exact fun _ h => by cases h
        · exact hv
  operate _ _ _ := by
    refine .reads fun t _ => ⟨t.reads, rfl, fun _ => .inl, fun v hv => ?_⟩
    obtain rfl := Except.ok.inj hv
    simp [InHand, Eval.sharedIn_binary, Within]
  newObject {g ks vs xs} _ hxs := by
    intro t ht
    rw [Eval.run_newObject]
    have hps : ∀ v ∈ (Table.ofList (ks.zip xs)).values, Within g.hand (sharedIn v) := by
      intro v hv
      obtain ⟨k, hk⟩ := mem_values_ofList hv
      exact ht.inHand.1 (hxs v (List.of_mem_zip hk).2)
    have hm := Move.newObject (g := g) (s := s.withEval y z t) hps
    refine ⟨_, .of_move (.inr rfl) hm, ⟨ht.sound.move hm, fun hx => .inl (ht.grown hx), ?_, ?_, ?_⟩, ?_⟩
    · intro k hk
      exact ht.alive (hk.resolve_right (by simp))
    · exact fun hr => (ht.reads hr).mono fun _ => .inl
    · exact fun hr => (ht.entries hr).imp_left .inl
    · intro v hv x hx
      obtain rfl := Except.ok.inj hv
      obtain rfl := List.mem_singleton.1 hx
      exact .inl (.inr rfl)
  converter {g e n args} _ := by
    refine .reads fun t _ => ⟨t.reads, ?_, fun _ => .inl, fun c hc b v xs hv hxs => ?_⟩
    · rw [Eval.run_converter]
      cases ctx.converters.get? n <;> rfl
    · rw [Eval.run_converter] at hc
      cases hn : ctx.converters.get? n with
      | none =>
        rw [hn] at hc
        cases hc
      | some c' =>
        rw [hn] at hc
        obtain rfl := Except.ok.inj hc
        exact (htame n c' hn).toView hv hxs

theorem within_scope {H : Shared → Prop} {x : Scope} :
    Within H (sharedInScope x) ↔ ∀ l ∈ x.levels, H (.object l.context) ∧ H (.object l.override) := by
  unfold sharedInScope
  rw [Within.flatMap]
  simp [Within]

theorem mem_levels {ctx : EvalContext} {l : Level} :
    l ∈ ctx.levels ↔ l ∈ ctx.scope.levels ∨ ∃ x, ctx.host = some x ∧ l ∈ x.levels := by
  unfold EvalContext.levels
  cases ctx.host <;> simp

/-- What an evaluation with a system makes, and what can be said of its result. -/
theorem Moves.evaluating (h : Sound g.hand s) {y : SystemId} {z : System} (hz : s.systems.get? y = some z)
    {alive : StreamId → Bool} (ha : ∀ k, g.hand (.stream k) → alive k = true) {α : Type} {Q : Ghost → α → Prop}
    {m : Eval α} (hm : IsMade s y z alive g g Q m) :
    ∃ g', Moves Silent (g, s) (g', s.withEval y z (m.run { store := s.store, registry := z.registry }).2) ∧
      Evaluating s y z alive g g' (m.run { store := s.store, registry := z.registry }).2 ∧
        ∀ a, (m.run { store := s.store, registry := z.registry }).1 = .ok a → Q g' a := by
  have hstart := Moves.withEval h hz
  obtain ⟨g', hmoves, hend, hq⟩ := hm { store := s.store, registry := z.registry }
    ⟨h.moves hstart, id, ha _, (fun hr => by cases hr), (fun hr => by cases hr)⟩
  exact ⟨g', hstart.trans hmoves, hend, hq⟩

theorem hand_levels (ctx : EvalContext) (hscope : Within g.hand (sharedInScope ctx.scope))
    (hhost : ∀ x, ctx.host = some x → Within g.hand (sharedInScope x)) :
    ∀ l ∈ ctx.levels, g.hand (.object l.context) ∧ g.hand (.object l.override) := by
  intro l hl
  rcases mem_levels.1 hl with hl | ⟨x, hx, hl⟩
  · exact within_scope.1 hscope l hl
  · exact within_scope.1 (hhost x hx) l hl

theorem Sound.tame_of_get? {H : Shared → Prop} (h : Sound H s) {y : SystemId} {z : System}
    (hz : s.systems.get? y = some z) (n : String) (c : Converter) (hc : z.converters.get? n = some c) : c.IsTame :=
  h.tame (by rwa [converterIn_of_get? hz])

theorem Moves.evaluate (h : Sound g.hand s) (ha : ∀ k, g.hand (.stream k) → s.isAlive k = true) {scope : Scope}
    {host : Option Scope} (hscope : Within g.hand (sharedInScope scope))
    (hhost : ∀ x, host = some x → Within g.hand (sharedInScope x)) (y : SystemId) (flags : EvalFlags) (w : Watch)
    (e : Expr) :
    ∃ g', Moves Silent (g, s) (g', (s.evaluate y flags scope host w e).1) ∧
      (∀ r ∈ (s.evaluate y flags scope host w e).2.1, Within g'.hand (sharedInSource (sourceOf r))) ∧
      (∀ i o, .stream i o ∈ (s.evaluate y flags scope host w e).2.1 →
        (s.evaluate y flags scope host w e).1.systems.entryIn y i = some o ∧
          (s.evaluate y flags scope host w e).1.store.isLive o = true) ∧
      ∀ v, (s.evaluate y flags scope host w e).2.2 = .ok v → Within g'.hand (sharedIn v) := by
  unfold Session.evaluate
  cases hz : s.systems.get? y with
  | none =>
    exact ⟨g, .refl, by simp, by simp, fun v hv => by obtain rfl := Except.ok.inj hv; exact fun _ h => by cases h⟩
  | some z =>
    let ctx : EvalContext := { flags, scope, host, converters := z.converters, alive := s.isAlive }
    obtain ⟨g', hm, hend, hq⟩ := Moves.evaluating h hz ha
      ((isMade_rules (hand_levels ctx hscope hhost) (h.tame_of_get? hz)).evaluate e (fun _ _ => trivial) rfl)
    refine ⟨g', hm, fun r hr => hend.reads hr, fun i o ho => ?_, fun v hv => hend.inHand.1 (hq v hv)⟩
    obtain ⟨he, hlive⟩ := Registry.get?_eq_some.1 (hend.entries ho).2
    refine ⟨(entryIn_insert s.systems y y _ i).trans ?_, hlive⟩
    rw [if_pos rfl]
    exact he

/-- The streams that an evaluation reads are alive. -/
theorem isAlive_of_read (h : Sound g.hand s) (ha : ∀ k, g.hand (.stream k) → s.isAlive k = true) {scope : Scope}
    {host : Option Scope} (hscope : Within g.hand (sharedInScope scope))
    (hhost : ∀ x, host = some x → Within g.hand (sharedInScope x)) {y : SystemId} {flags : EvalFlags} {w : Watch}
    {e : Expr} {i : StreamId} {o : ObserverId} (hr : .stream i o ∈ (s.evaluate y flags scope host w e).2.1) :
    s.isAlive i = true := by
  unfold Session.evaluate at hr
  cases hz : s.systems.get? y with
  | none => simp [hz] at hr
  | some z =>
    rw [hz] at hr
    let ctx : EvalContext := { flags, scope, host, converters := z.converters, alive := s.isAlive }
    obtain ⟨g', -, hend, -⟩ := Moves.evaluating h hz ha
      ((isMade_rules (hand_levels ctx hscope hhost) (h.tame_of_get? hz)).evaluate e (fun _ _ => trivial) rfl)
    exact hend.alive (hend.entries hr).1

/-- What is assigned through a converter refers to nothing that the converter was not given. -/
theorem isMade_fromView {y : SystemId} {z : System} {base : Ghost} {ctx : EvalContext}
    (htame : ∀ n c, ctx.converters.get? n = some c → c.IsTame) (n : String) :
    IsMade s y z ctx.alive base g
      (fun _ c => ∀ b v xs, InHand base b v → (∀ x ∈ xs, InHand base b x) → InHand base b (c.fromView v xs))
      (Eval.converter ctx n) := by
  refine .reads fun t _ => ⟨t.reads, ?_, fun _ => .inl, fun c hc b v xs hv hxs => ?_⟩
  · rw [Eval.run_converter]
    cases ctx.converters.get? n <;> rfl
  · rw [Eval.run_converter] at hc
    cases hn : ctx.converters.get? n with
    | none =>
      rw [hn] at hc
      cases hc
    | some c' =>
      rw [hn] at hc
      obtain rfl := Except.ok.inj hc
      exact (htame n c' hn).fromView hv hxs

/-- What is assigned through an expression goes to an object in hand. -/
theorem isMade_destination {y : SystemId} {z : System} {base : Ghost} {ctx : EvalContext}
    (hlevels : ∀ l ∈ ctx.levels, base.hand (.object l.context) ∧ base.hand (.object l.override))
    (htame : ∀ n c, ctx.converters.get? n = some c → c.IsTame) (e : Expr) (g : Ghost) (v : Value)
    (hv : InHand base g v) :
    IsMade s y z ctx.alive base g
      (fun g' d => InHand base g' (.object d.object) ∧ InHand base g' d.value) (e.destination ctx v) :=
  (isMade_rules hlevels htame).destination rfl (fun _ => isMade_fromView htame _) e (fun _ _ => trivial) hv

theorem Moves.destination (h : Sound g.hand s) (ha : ∀ k, g.hand (.stream k) → s.isAlive k = true) {scope : Scope}
    {host : Option Scope} (hscope : Within g.hand (sharedInScope scope))
    (hhost : ∀ x, host = some x → Within g.hand (sharedInScope x)) (y : SystemId) (flags : EvalFlags) (e : Expr)
    {v : Value} (hv : Within g.hand (sharedIn v)) :
    ∃ g', Moves Silent (g, s) (g', (s.destination y flags scope host e v).1) ∧
      ∀ d, (s.destination y flags scope host e v).2 = .ok d →
        g'.hand (.object d.object) ∧ Within g'.hand (sharedIn d.value) := by
  unfold Session.destination
  cases hz : s.systems.get? y with
  | none => exact ⟨g, .refl, fun d hd => by cases hd⟩
  | some z =>
    let ctx : EvalContext := { flags, scope, host, converters := z.converters, alive := s.isAlive }
    obtain ⟨g', hm, hend, hq⟩ := Moves.evaluating h hz ha
      (isMade_destination (hand_levels ctx hscope hhost) (h.tame_of_get? hz) e g v (hv.mono fun _ => .inl))
    refine ⟨g', hm, fun d hd => ?_⟩
    obtain ⟨ho, hd⟩ := hq d hd
    exact ⟨hend.inHand.1 ho _ (by simp [sharedIn]), hend.inHand.1 hd⟩

end Session

end DataBinding
