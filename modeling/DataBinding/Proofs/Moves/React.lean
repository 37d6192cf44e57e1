import DataBinding.Proofs.Answers
import DataBinding.Proofs.Moves.Evaluate
import DataBinding.Proofs.Moves.Release

/-!
# Changes are made of moves

Writing, notifying, binding, and telling listeners and sinks: each of these is a sequence of moves, and leaves tasks
that refer to nothing but what is in hand (`ReactsWith`). Where a property is written, that comes last (`Concludes`).
-/

namespace DataBinding

namespace Session

variable {E E' : Effect → Prop} {g g' : Ghost} {s : Session}

/-! ### Writing and notifying -/

/-- The change is made of moves, and leaves tasks that refer to what is in hand. -/
def ReactsWith (E : Effect → Prop) (g : Ghost) (s : Session) (r : Reaction) : Prop :=
  ∃ g', Moves E (g, s) (g', r.session) ∧ ∀ t ∈ r.tasks, Within g'.hand (sharedInTask t)

theorem ReactsWith.of_moves {r : Reaction} {t : Session} (hm : Moves E (g, s) (g', t)) (hr : ReactsWith E g' t r) :
    ReactsWith E g s r := by
  obtain ⟨g'', hm', ht⟩ := hr
  exact ⟨g'', hm.trans hm', ht⟩

theorem ReactsWith.mono {r : Reaction} (hE : ∀ e, E e → E' e) (hr : ReactsWith E g s r) : ReactsWith E' g s r := by
  obtain ⟨g', hm, ht⟩ := hr
  exact ⟨g', hm.mono hE, ht⟩

theorem ReactsWith.andThen {r : Reaction} (hr : ReactsWith E g s r) {ts : List Task} (h : ∀ t ∈ ts, sharedInTask t = []) :
    ReactsWith E g s (r.andThen ts) := by
  obtain ⟨g', hm, ht⟩ := hr
  refine ⟨g', hm, fun t hmem => ?_⟩
  rcases List.mem_append.1 hmem with hmem | hmem
  · exact ht t hmem
  · simp [h t hmem, Within]

theorem Sound.property (h : Sound g.hand s) {o : ObjectId} (ho : g.hand (.object o)) (n : String) :
    Within g.hand (sharedIn (s.store.property o n)) := by
  intro x hx
  unfold Store.property Object.get at hx
  cases hp : (s.store.object o).properties.get? n with
  | none => simp [hp, sharedIn] at hx
  | some v =>
    rw [hp] at hx
    exact h.closed ho x (List.mem_flatMap.2 ⟨v, Table.mem_values_of_get? hp, hx⟩)

theorem reacts_notify {x : Source} {new previous : Value}
    (hx : Within g.hand (sharedInSource x)) (hn : Within g.hand (sharedIn new))
    (hp : Within g.hand (sharedIn previous)) : ReactsWith Silent g s (s.notify x new previous) := by
  refine ⟨g, .storeSweep hx _, fun t ht => ?_⟩
  obtain rfl := List.mem_singleton.1 ht
  simp only [sharedInTask, Within.append]
  exact ⟨⟨hx, hn⟩, hp⟩

/-- What comes last: a write, or nothing. -/
inductive Ending (H : Shared → Prop) (t : Session) : Reaction → Prop
  | still : Ending H t { session := t }
  | write {o n v} (ho : H (.object o)) (hv : Within H (sharedIn v)) : Ending H t (t.write o n v)

/-- After moves a write comes last, if there is one. Things may be held until then. -/
def Concludes (E : Effect → Prop) (g : Ghost) (s : Session) (r : Reaction) : Prop :=
  ∃ g' t q, ∃ rs : List Ref, Moves E (g, s) (g', t) ∧ Ending g'.hand t q ∧ r = q.andThen (rs.map .keep)

/-- The same with what a write does. -/
def Writing (E : Effect → Prop) (f : Effect) : Prop := E f ∨ ∃ o n, f = .puts o n

theorem andThen_nil (r : Reaction) : r.andThen [] = r := by
  simp [Reaction.andThen]

namespace Concludes

theorem still {t : Session} (hm : Moves E (g, s) (g', t)) : Concludes E g s { session := t } :=
  ⟨g', t, _, [], hm, .still, rfl⟩

theorem write {t : Session} (hm : Moves E (g, s) (g', t)) {o : ObjectId} (ho : g'.hand (.object o)) (n : String)
    {v : Value} (hv : Within g'.hand (sharedIn v)) : Concludes E g s (t.write o n v) :=
  ⟨g', t, _, [], hm, .write ho hv, (andThen_nil _).symm⟩

theorem of_moves {r : Reaction} {t : Session} (hm : Moves E (g, s) (g', t)) (hr : Concludes E g' t r) :
    Concludes E g s r := by
  obtain ⟨g'', u, q, rs, hm', hq, hr⟩ := hr
  exact ⟨g'', u, q, rs, hm.trans hm', hq, hr⟩

theorem mono {r : Reaction} (hE : ∀ e, E e → E' e) (hr : Concludes E g s r) : Concludes E' g s r := by
  obtain ⟨g', t, q, rs, hm, hq, hr⟩ := hr
  exact ⟨g', t, q, rs, hm.mono hE, hq, hr⟩

theorem keep {r : Reaction} (hr : Concludes E g s r) (x : Ref) : Concludes E g s (r.andThen [.keep x]) := by
  obtain ⟨g', t, q, rs, hm, hq, rfl⟩ := hr
  exact ⟨g', t, q, rs ++ [x], hm, hq, by simp [Reaction.andThen]⟩

end Concludes

theorem reacts_write (h : Sound g.hand s) {o : ObjectId} (ho : g.hand (.object o)) (n : String) {v : Value}
    (hv : Within g.hand (sharedIn v)) : ReactsWith (Writing Silent) g s (s.write o n v) := by
  have hm : Moves (Writing Silent) (g, s)
      (g, { s with store := s.store.setObject o ((s.store.object o).put n v) }) :=
    .of_move (.inr ⟨o, n, rfl⟩) (.putting ho hv)
  unfold Session.write
  dsimp only
  split
  · refine .of_moves hm (.mono (fun _ => .inl) (reacts_notify ?_ hv (h.property ho n)))
    intro x hx
    obtain rfl := List.mem_singleton.1 hx
    exact ho
  · exact ⟨g, hm, by simp⟩

/-- A change that concludes with a write is made of moves. -/
theorem Concludes.reacts {r : Reaction} (hr : Concludes E g s r) (h : Sound g.hand s) (hE : ∀ f, Silent f → E f) :
    ReactsWith (Writing E) g s r := by
  obtain ⟨g', t, q, rs, hm, hq, rfl⟩ := hr
  have hlast : ReactsWith (Writing E) g' t q := by
    cases hq with
    | still => exact ⟨g', .refl, by simp⟩
    | write ho hv => exact (reacts_write (h.moves hm) ho _ hv).mono fun f => Or.imp_left (hE f)
  exact .of_moves (hm.mono fun _ => .inl) (hlast.andThen (by simp [sharedInTask]))

theorem concludes_assign (h : Sound g.hand s) (ha : ∀ k, g.hand (.stream k) → s.isAlive k = true) {scope : Scope}
    {host : Option Scope} (hscope : Within g.hand (sharedInScope scope))
    (hhost : ∀ x, host = some x → Within g.hand (sharedInScope x)) {y : SystemId} {flags : EvalFlags} {e : Expr}
    {v : Value} (hv : Within g.hand (sharedIn v)) {r : Reaction} (hr : s.assign y flags scope host e v = .ok r) :
    Concludes Silent g s r := by
  obtain ⟨g', hm, hd⟩ := Moves.destination h ha hscope hhost y flags e hv
  obtain ⟨t, d, hdest, rfl⟩ := exists_write_of_assign hr
  rw [hdest] at hm hd
  obtain ⟨ho, hv⟩ := hd d rfl
  exact .write hm ho _ hv

/-! ### Bindings -/

theorem Moves.modifyBinding {b : BindingId} {f : Binding → Binding}
    (hf : ∀ x, s.bindings.get? b = some x → Within g.hand (sharedInBinding (f x)))
    (hb : ∀ x, s.bindings.get? b = some x → x.Becomes (f x) := by exact fun _ _ => ⟨rfl, rfl, .inr (.inl rfl)⟩) :
    Moves Silent (g, s) (g, s.modifyBinding b f) := by
  refine .silent (.bindings (fun c x hx => ?_) fun c x hx => ?_)
  all_goals
    rw [Table.get?_modify] at hx
    split at hx
  next hbc =>
    obtain ⟨z, hz, rfl⟩ := Option.map_eq_some_iff.1 hx
    exact .inr (hf z hz)
  · exact .inl hx
  next hbc =>
    subst hbc
    obtain ⟨z, hz, rfl⟩ := Option.map_eq_some_iff.1 hx
    exact ⟨z, hz, hb z hz⟩
  · exact ⟨x, hx, .refl x⟩

theorem within_observe {H : Shared → Prop} {r : Observations} {t : Store} {l : Listener} {x : Source}
    (hr : Within H (sharedInRecord r)) (hx : Within H (sharedInSource x)) :
    Within H (sharedInRecord (r.observe t l x).2) := by
  rw [within_record] at hr ⊢
  unfold Observations.observe
  split
  · intro e he
    obtain ⟨d, hd, rfl⟩ := List.mem_map.1 he
    split <;> exact hr d hd
  · intro e he
    rcases List.mem_append.1 he with he | he
    · exact hr e he
    · obtain rfl := List.mem_singleton.1 he
      exact hx

theorem Moves.observeSource {x : Source} (hx : Within g.hand (sharedInSource x)) (r : Observations) (l : Listener)
    (hl : ∀ b o, l = .binding b → x = .observer o → ∃ z i, s.bindings.get? b = some z ∧
      s.systems.entryIn z.system i = some o) :
    Moves (Hearing l) (g, s) (g, { s with store := (r.observe s.store l x).1 }) := by
  unfold Observations.observe
  split
  · exact .refl
  · exact .storeListen hx l hl

/-- A binding observes what its system has read. -/
theorem Moves.observe (h : Sound g.hand s) {b : BindingId} {y : SystemId}
    (hb : ∀ x, s.bindings.get? b = some x → x.system = y) {reads : List Read}
    (hr : ∀ r ∈ reads, Within g.hand (sharedInSource (sourceOf r)))
    (hi : ∀ i o, .stream i o ∈ reads → s.systems.entryIn y i = some o) :
    Moves (Hearing (.binding b)) (g, s) (g, s.observe b reads) := by
  unfold Session.observe
  induction reads generalizing s with
  | nil => exact .refl
  | cons r reads ih =>
    have hreads := fun d hd => hr d (List.mem_cons_of_mem _ hd)
    have hentries := fun i o ho => hi i o (List.mem_cons_of_mem _ ho)
    rw [List.foldl_cons]
    split
    · exact ih h hb hreads hentries
    next x hx =>
      have hsource := hr r (by simp)
      obtain ⟨ht, hv, ho, hs⟩ := within_binding.1 (h.outside.bindings hx)
      have hlisten : Moves (Hearing (.binding b)) (g, s)
          (g, { s with store := (x.observations.observe s.store (.binding b) (sourceOf r)).1 }) := by
        refine .observeSource hsource _ _ ?_
        rintro c o ⟨rfl⟩ hro
        cases r with
        | property => cases hro
        | stream i p =>
          obtain rfl := Source.observer.inj hro
          exact ⟨x, i, hx, hb x hx ▸ hi i p (by simp)⟩
      have hstep := hlisten.trans ((Moves.silent (.bindings
        (t := s.bindings.insert b
          { x with observations := (x.observations.observe s.store (.binding b) (sourceOf r)).2 })
        (fun c z hz => ?_) fun c z hz => ?_)).mono fun _ => .inl)
      · refine hstep.trans (ih (h.moves hstep) (fun z hz => ?_) hreads hentries)
        rw [Table.get?_insert, if_pos rfl] at hz
        obtain rfl := Option.some.inj hz
        exact hb x hx
      all_goals
        rw [Table.get?_insert] at hz
        split at hz
      · obtain rfl := Option.some.inj hz
        exact .inr (within_binding.2 ⟨ht, hv, within_observe ho hsource, hs⟩)
      · exact .inl hz
      next hbc =>
        subst hbc
        obtain rfl := Option.some.inj hz
        exact ⟨x, hx, rfl, rfl, .inr (.inl rfl)⟩
      · exact ⟨z, hz, .refl z⟩

theorem within_withObservations {H : Shared → Prop} {x : Binding} {r : Observations}
    (hx : Within H (sharedInBinding x)) (hr : ∀ e ∈ r.entries, e ∈ x.observations.entries) :
    Within H (sharedInBinding { x with observations := r }) := by
  obtain ⟨ht, hv, ho, hs⟩ := within_binding.1 hx
  exact within_binding.2 ⟨ht, hv, within_record.2 fun e he => within_record.1 ho e (hr e he), hs⟩

theorem Moves.clearStale (h : Sound g.hand s) (b : BindingId) : Moves Silent (g, s) (g, s.clearStale b) := by
  unfold Session.clearStale
  split
  · exact .refl
  next x hx =>
    have hm : Moves Silent (g, s) (g, s.modifyBinding b fun x => { x with observations := x.observations.fresh }) :=
      .modifyBinding fun z hz => within_withObservations (h.outside.bindings hz) fun e he => (List.mem_filter.1 he).1
    have hw := within_record.1 (within_binding.1 (h.outside.bindings hx)).2.2.1
    exact hm.trans (.releaseAll fun e he => hw e (List.mem_filter.1 he).1)

theorem Moves.clearObservations (h : Sound g.hand s) (b : BindingId) :
    Moves Silent (g, s) (g, s.clearObservations b) := by
  unfold Session.clearObservations
  split
  · exact .refl
  next x hx =>
    have hm : Moves Silent (g, s) (g, s.modifyBinding b fun x => { x with observations := x.observations.cleared }) :=
      .modifyBinding fun z hz => within_withObservations (h.outside.bindings hz) fun e he => by cases he
    exact hm.trans (.releaseAll (within_record.1 (within_binding.1 (h.outside.bindings hx)).2.2.1))

theorem Moves.withState (h : Sound g.hand s) (b : BindingId) (y? : Option Bound)
    (hy : ∀ y, y? = some y →
      Within g.hand (sharedInScope y.scope) ∧ ∀ z, y.host = some z → Within g.hand (sharedInScope z)) :
    Moves Silent (g, s) (g, s.modifyBinding b fun x => { x with state := y? }) := by
  refine .modifyBinding fun x hx => ?_
  obtain ⟨ht, hv, ho, -⟩ := within_binding.1 (h.outside.bindings hx)
  exact within_binding.2 ⟨ht, hv, ho, hy⟩

theorem Moves.unbind (h : Sound g.hand s) (b : BindingId) : Moves Silent (g, s) (g, s.unbind b) := by
  unfold Session.unbind
  split
  · exact .refl
  · split
    · have hm := Moves.withState h b none (fun _ hy => by cases hy)
      exact hm.trans (.clearObservations (h.moves hm) b)
    · exact .refl

theorem concludes_writeTarget (h : Sound g.hand s) (b : BindingId) {x : Binding} {v : Value}
    (hx : g.hand (.object x.target)) (hv : Within g.hand (sharedIn v)) :
    Concludes Silent g s (s.writeTarget b x v) := by
  have hm : Moves Silent (g, s) (g, s.modifyBinding b fun x => { x with value := v }) := by
    refine .modifyBinding fun z hz => ?_
    obtain ⟨ht, -, ho, hs⟩ := within_binding.1 (h.outside.bindings hz)
    exact within_binding.2 ⟨ht, hv, ho, hs⟩
  exact .write hm hx _ hv

theorem bindings_evaluate (s : Session) (i : SystemId) (flags : EvalFlags) (scope : Scope) (host : Option Scope)
    (w : Watch) (e : Expr) : (s.evaluate i flags scope host w e).1.bindings = s.bindings := by
  unfold Session.evaluate
  split <;> rfl

/-- Entering what was read changes nothing of a binding but its record. -/
theorem expression_observe {b c : BindingId} {reads : List Read} {z : Binding}
    (hz : (s.observe b reads).bindings.get? c = some z) :
    ∃ x, s.bindings.get? c = some x ∧ x.expression = z.expression := by
  unfold Session.observe at hz
  induction reads generalizing s with
  | nil => exact ⟨z, hz, rfl⟩
  | cons r reads ih =>
    rw [List.foldl_cons] at hz
    split at hz
    · exact ih hz
    next x hx =>
      obtain ⟨w, hw, hsame⟩ := ih hz
      rw [Table.get?_insert] at hw
      split at hw
      next hbc =>
        obtain rfl := Option.some.inj hw
        exact ⟨x, hbc ▸ hx, hsame⟩
      · exact ⟨w, hw, hsame⟩

theorem expression_readAgain {b c : BindingId} {x z : Binding} {y : Bound}
    (hz : (s.readAgain b x y).1.bindings.get? c = some z) :
    ∃ x', s.bindings.get? c = some x' ∧ x'.expression = z.expression := by
  obtain ⟨w, hw, hsame⟩ := expression_observe hz
  have hw : (s.modifyBinding b fun x => { x with observations := x.observations.nextRound }).bindings.get? c = some w :=
    bindings_evaluate _ x.system x.flags y.scope y.host .everything x.expression ▸ hw
  rw [Session.modifyBinding, Table.get?_modify] at hw
  split at hw
  next hbc =>
    obtain ⟨v, hv, rfl⟩ := Option.map_eq_some_iff.1 hw
    exact ⟨v, hbc ▸ hv, hsame⟩
  · exact ⟨w, hw, hsame⟩

theorem canFail_evaluate {i : SystemId} {flags : EvalFlags} {scope : Scope} {host : Option Scope} {w : Watch} {e : Expr}
    {x : ExpressionError} (h : (s.evaluate i flags scope host w e).2.2 = .error x) : e.CanFail := by
  unfold Session.evaluate at h
  split at h
  · cases h
  · exact ⟨_, _, _, _, h⟩

/-- What a binding does that is evaluated. -/
def Reading (b : BindingId) (f : Effect) : Prop := Calm f ∨ f = .hears b

theorem Moves.reading {b : BindingId} {p q : Ghost × Session} (h : Moves Silent p q) : Moves (Reading b) p q :=
  h.mono fun _ hf => .inl (.inl hf)

theorem Concludes.reading {b : BindingId} {r : Reaction} (h : Concludes Silent g s r) : Concludes (Reading b) g s r :=
  h.mono fun _ hf => .inl (.inl hf)

/-- A bound binding evaluates again with what is held. -/
theorem Moves.readAgain (h : Sound g.hand s) {b : BindingId} {x' : Binding} (hb : s.bindings.get? b = some x')
    {y : Bound} (hy : x'.state = some y) {x : Binding} (hsystem : x'.system = x.system) :
    ∃ g', Moves (Reading b) (g, s) (g', (s.readAgain b x y).1) ∧ g'.hand (.object x'.target) ∧
      ∀ v, (s.readAgain b x y).2 = .ok v → Within g'.hand (sharedIn v) := by
  have hm : Moves Silent (g, s) (g, s.modifyBinding b fun x => { x with observations := x.observations.nextRound }) :=
    .modifyBinding fun z hz => within_withObservations (h.outside.bindings hz) fun e he => he
  have hnarrow := (h.moves hm).narrow
  have hb' : (s.modifyBinding b fun x => { x with observations := x.observations.nextRound }).bindings.get? b =
      some { x' with observations := x'.observations.nextRound } := by
    simp [Session.modifyBinding, Table.get?_modify, hb]
  obtain ⟨ht, -, -, hs⟩ := within_binding.1 (hnarrow.outside.bindings hb')
  obtain ⟨hscope, hhost⟩ := hs y hy
  obtain ⟨g', heval, hreads, hentries, hv⟩ := Moves.evaluate
    (g := { g with hand := (· ∈ (s.modifyBinding b fun x => { x with observations := x.observations.nextRound }).held) })
    hnarrow (fun k hk => isAlive_iff.2 hk) hscope hhost x.system x.flags .everything x.expression
  refine ⟨g', ?_, heval.hand_mono ht, hv⟩
  have hobserve := Moves.observe (hnarrow.moves heval) (b := b) (y := x.system) (fun z hz => ?_) hreads
    fun i o ho => (hentries i o ho).1
  · refine hm.reading.trans (.trans (.of_move (.inl (.inr rfl)) .narrowing) (heval.reading.trans (hobserve.mono ?_)))
    rintro f (hf | ⟨c, ⟨rfl⟩, rfl⟩)
    · exact .inl (.inl hf)
    · exact .inr rfl
  · rw [bindings_evaluate, hb'] at hz
    obtain rfl := Option.some.inj hz
    exact hsystem

@[simp] theorem bindings_destroy (s : Session) (o : ObserverId) : (s.destroy o).bindings = s.bindings := by
  unfold Session.destroy
  split
  · rfl
  · split
    · rfl
    · rw [close_bindings]

@[simp] theorem bindings_letGoObserver (s : Session) (o : ObserverId) : (s.letGoObserver o).bindings = s.bindings := by
  unfold Session.letGoObserver
  split
  · rfl
  · split
    · rfl
    · rw [close_bindings]

@[simp] theorem bindings_unlisten (s : Session) (x : Source) (token : Nat) :
    (s.unlisten x token).bindings = s.bindings := by
  unfold Session.unlisten
  dsimp only
  split
  · split
    · rw [bindings_destroy]
    · rfl
  · rfl

@[simp] theorem bindings_releaseAll (s : Session) (es : List Observation) : (s.releaseAll es).bindings = s.bindings := by
  unfold Session.releaseAll
  induction es generalizing s with
  | nil => rfl
  | cons e es ih =>
    rw [List.foldl_cons, ih]
    unfold Session.release
    dsimp only
    split
    · rw [bindings_letGoObserver, bindings_unlisten]
    · rw [bindings_unlisten]

/-- A binding that was unbound still has its target. -/
theorem target_unbind {b : BindingId} {x : Binding} (hb : s.bindings.get? b = some x) :
    ∃ x', (s.unbind b).bindings.get? b = some x' ∧ x'.target = x.target ∧ x'.system = x.system := by
  unfold Session.unbind
  simp only [hb]
  split
  · simp [Session.clearObservations, Session.modifyBinding, Table.get?_modify, hb]
  · exact ⟨x, hb, rfl, rfl⟩

/-- What binding a binding comes to when its expression was evaluated. -/
def afterBind (b : BindingId) (x : Binding) (result : Except ExpressionError Value) (s : Session) :
    Reaction × Except BindError Unit :=
  match result with
  | .ok v => ((s.clearStale b).writeTarget b x v, .ok ())
  | .error e =>
    ({ session := (s.modifyBinding b fun x => { x with state := none }).clearObservations b }, .error (.expression e))

theorem bind_eq {b : BindingId} {x : Binding} {y : Bound} (hy : (x.state.any fun z => z.scope.id = y.scope.id) = false) :
    s.bind b x y =
      let r := ((s.unbind b).modifyBinding b fun x => { x with state := some y }).readAgain b x y
      afterBind b x r.2 r.1 := by
  unfold Session.bind
  rw [hy]
  simp only [Bool.false_eq_true, if_false]
  split
  next hr => rw [hr]; rfl
  next hr => rw [hr]; rfl

theorem concludes_afterBind (h : Sound g.hand s) {b : BindingId} {x : Binding} (hx : g.hand (.object x.target))
    {result : Except ExpressionError Value} (hv : ∀ v, result = .ok v → Within g.hand (sharedIn v)) :
    Concludes Silent g s (afterBind b x result s).1 := by
  cases result with
  | ok v =>
    have hclear := Moves.clearStale h b
    exact .of_moves hclear (concludes_writeTarget (h.moves hclear) b hx (hv v rfl))
  | error e =>
    have hnone := Moves.withState h b none (fun _ hy => by cases hy)
    exact .still (hnone.trans (.clearObservations (h.moves hnone) b))

theorem concludes_bind (h : Sound g.hand s) {b : BindingId} {x : Binding} (hb : s.bindings.get? b = some x) {y : Bound}
    (hscope : Within g.hand (sharedInScope y.scope))
    (hhost : ∀ z, y.host = some z → Within g.hand (sharedInScope z)) :
    Concludes (Reading b) g s (s.bind b x y).1 := by
  by_cases hy : (x.state.any fun z => z.scope.id = y.scope.id) = true
  · unfold Session.bind
    rw [if_pos hy]
    exact .still .refl
  have hunbind := Moves.unbind h b
  have hstate : Moves Silent (g, s.unbind b) (g, (s.unbind b).modifyBinding b fun x => { x with state := some y }) := by
    refine .withState (h.moves hunbind) b _ fun z hz => ?_
    obtain rfl := Option.some.inj hz
    exact ⟨hscope, hhost⟩
  have hm := hunbind.trans hstate
  obtain ⟨x', hx', htarget, hsystem⟩ := target_unbind hb
  have hb' : ((s.unbind b).modifyBinding b fun x => { x with state := some y }).bindings.get? b =
      some { x' with state := some y } := by
    simp [Session.modifyBinding, Table.get?_modify, hx']
  obtain ⟨g', hread, hg', hv⟩ := Moves.readAgain (h.moves hm) hb' rfl hsystem
  rw [bind_eq (by simpa using hy)]
  exact .of_moves (hm.reading.trans hread)
    (concludes_afterBind ((h.moves hm).moves hread) (htarget ▸ hg') hv).reading

/-- What telling a binding comes to when its expression was evaluated. -/
def afterRefresh (b : BindingId) (x : Binding) (result : Except ExpressionError Value) (s : Session) : Reaction :=
  match result with
  | .ok v => ((s.clearStale b).modifyBinding b fun x => { x with lastError := none }).writeTarget b x v
  | .error e => { session := s.modifyBinding b fun x => { x with lastError := some (.expression e) } }

theorem refresh_eq {b : BindingId} {x : Binding} {y : Bound} (hx : s.bindings.get? b = some x) (hy : x.state = some y) :
    s.refresh b = afterRefresh b x (s.readAgain b x y).2 (s.readAgain b x y).1 := by
  unfold Session.refresh
  simp only [hx, hy]
  split
  next hr => rw [hr]; rfl
  next hr => rw [hr]; rfl

theorem concludes_afterRefresh (h : Sound g.hand s) {b : BindingId} {x : Binding} (hx : g.hand (.object x.target))
    {result : Except ExpressionError Value} (hv : ∀ v, result = .ok v → Within g.hand (sharedIn v))
    (hfail : ∀ e, result = .error e → ∀ z, s.bindings.get? b = some z → z.expression.CanFail) :
    Concludes Silent g s (afterRefresh b x result s) := by
  have hlast : ∀ {t : Session} (e? : Option BindError), Sound g.hand t →
      (e? = none ∨ ∀ z, t.bindings.get? b = some z → z.expression.CanFail) →
      Moves Silent (g, t) (g, t.modifyBinding b fun x => { x with lastError := e? }) := by
    intro t e? ht he
    refine .modifyBinding (fun z hz => ?_) fun z hz => ⟨rfl, rfl, he.imp id fun hfail => .inr (hfail z hz)⟩
    have hw : Within g.hand (sharedInBinding z) := ht.outside.bindings hz
    exact hw
  cases result with
  | ok v =>
    have hclear := Moves.clearStale h b
    have herror := hlast none (h.moves hclear) (.inl rfl)
    exact .of_moves (hclear.trans herror) (concludes_writeTarget ((h.moves hclear).moves herror) b hx (hv v rfl))
  | error e => exact .still (hlast _ h (.inr (hfail e rfl)))

/-- An expression that could not be evaluated again can fail. -/
theorem canFail_readAgain {b : BindingId} {x : Binding} {y : Bound} (hx : s.bindings.get? b = some x)
    {e : ExpressionError} (he : (s.readAgain b x y).2 = .error e) {z : Binding}
    (hz : (s.readAgain b x y).1.bindings.get? b = some z) : z.expression.CanFail := by
  obtain ⟨x', hx', hsame⟩ := expression_readAgain hz
  obtain rfl := Option.some.inj (hx.symm.trans hx')
  exact hsame ▸ canFail_evaluate he

theorem concludes_refresh (h : Sound g.hand s) (b : BindingId) : Concludes (Reading b) g s (s.refresh b) := by
  cases hx : s.bindings.get? b with
  | none =>
    simp only [Session.refresh, hx]
    exact .still .refl
  | some x =>
    cases hy : x.state with
    | none =>
      simp only [Session.refresh, hx, hy]
      exact .still .refl
    | some y =>
      obtain ⟨g', hread, hg', hv⟩ := Moves.readAgain h hx hy (x := x) rfl
      rw [refresh_eq hx hy]
      exact .of_moves hread (concludes_afterRefresh (h.moves hread) hg' hv fun e he z hz =>
        canFail_readAgain hx he hz).reading

theorem concludes_updateSource (h : Sound g.hand s) (ha : ∀ k, g.hand (.stream k) → s.isAlive k = true) {b : BindingId}
    {x : Binding} (hb : s.bindings.get? b = some x) {v : Value} (hv : Within g.hand (sharedIn v)) {r : Reaction}
    (hr : s.updateSource x v = .ok r) : Concludes Silent g s r := by
  obtain ⟨y, hy, hassign⟩ := exists_assign_of_updateSource hr
  obtain ⟨-, -, -, hs⟩ := within_binding.1 (h.outside.bindings hb)
  obtain ⟨hscope, hhost⟩ := hs y hy
  exact concludes_assign h ha hscope hhost hv hassign

/-! ### Listeners and sinks -/

theorem Moves.note (l : LogEntry) : Moves Silent (g, s) (g, s.note l) := .silent (.quiet (Nat.le_refl _))

/-- A recorder that is told of a change writes it down. -/
theorem reacts_tell_recorder (i : RecorderId) (new previous : Value) :
    ReactsWith Silent g s (s.tell new previous (.recorder i)) := by
  simp only [Session.tell]
  split
  · exact ⟨g, .refl, by simp⟩
  next x hx =>
    split
    · exact ⟨g, .note _, by simp⟩
    · exact ⟨g, .silent (.quiet (Nat.le_refl _)), by simp [sharedInTask, Within]⟩

/-- What a listener does that is told of a change. -/
def Telling (l : Listener) (f : Effect) : Prop := Calm f ∨ ∃ b, l = .binding b ∧ (f = .hears b ∨ ∃ o n, f = .puts o n)

theorem reacts_tell (h : Sound g.hand s) (new previous : Value) (l : Listener) :
    ReactsWith (Telling l) g s (s.tell new previous l) := by
  cases l with
  | binding b =>
    have hr := ((concludes_refresh h b).keep b.ref).reacts h fun _ hf => .inl (.inl hf)
    refine hr.mono ?_
    rintro f ((hf | rfl) | hf)
    · exact .inl hf
    · exact .inr ⟨b, rfl, .inl rfl⟩
    · exact .inr ⟨b, rfl, .inr hf⟩
  | recorder i => exact (reacts_tell_recorder i new previous).mono fun _ hf => .inl (.inl hf)

/-- What a sink that is told of an event does to the streams that others can see. -/
def Reception (k : Sink) (e : StreamEvent) (f : Effect) : Prop := Silent f ∨ ∃ o, k = .observer o ∧ f = .receives o e

theorem reacts_receive (h : Sound g.hand s) {e : StreamEvent} (he : Within g.hand (sharedInEvent e)) (k : Sink) :
    ReactsWith (Reception k e) g s (s.receive e k) := by
  cases k with
  | observer o =>
    simp only [Session.receive]
    split
    · exact ⟨g, .refl, by simp⟩
    next x hx =>
      have hm : Moves (Reception (.observer o) e) (g, s)
          (g, { s with store := s.store.setObserver o (x.receive e).1 }) :=
        .of_move (.inr ⟨o, rfl, rfl⟩) (.receiving hx he)
      have hs := h.moves hm
      split
      · exact ⟨g, hm, by simp⟩
      next new previous hchange =>
        obtain ⟨-, rfl, rfl, -⟩ := Observer.receive_eq_some hchange
        refine .of_moves hm (ReactsWith.andThen (.mono (fun _ => .inl) (reacts_notify ?_ he ?_)) (by simp [sharedInTask]))
        · exact fun _ hx => by cases hx
        · exact h.outside.observers hx
  | handler k =>
    have hnote : ∀ {l : String}, Moves Silent (g, s) (g, s.noteEvent l e) := by
      intro l
      cases e <;> exact .note _
    simp only [Session.receive]
    split
    · exact ⟨g, .refl, by simp⟩
    next x hx =>
      split
      · exact ⟨g, hnote.mono fun _ => .inl, by simp⟩
      · have hx' : (s.noteEvent x.label e).handlers.get? k = some x := by cases e <;> exact hx
        have hlimit : Moves Silent (g, s.noteEvent x.label e) (g, { s.noteEvent x.label e with
            handlers := (s.noteEvent x.label e).handlers.insert k { x with limit := x.limit - 1 } }) :=
          .silent (.handler hx' rfl)
        exact ⟨g, (hnote.trans hlimit).mono fun _ => .inl, by simp [sharedInTask, Within]⟩

theorem reacts_emit {i : StreamId} (hi : g.hand (.stream i)) {v : Value} (hv : Within g.hand (sharedIn v)) :
    ReactsWith (· = .emits i v) g s (s.emit i v) := by
  unfold Session.emit
  split
  next x hx =>
    refine ⟨g, .of_move rfl (.emitting hx hi hv), fun t ht => ?_⟩
    obtain rfl := List.mem_singleton.1 ht
    intro y hy
    rcases List.mem_cons.1 hy with rfl | hy
    · exact hi
    · exact hv y hy
  · exact ⟨g, .refl, by simp⟩

theorem reacts_terminate {i : StreamId} (hi : g.hand (.stream i)) {e : StreamEvent} (he : sharedInEvent e = []) :
    ReactsWith (· = .ends i e) g s (s.terminate i e) := by
  unfold Session.terminate
  split
  next x hx =>
    refine ⟨g, .of_move rfl (.ending hx he), fun t ht => ?_⟩
    obtain rfl := List.mem_singleton.1 ht
    intro y hy
    rcases List.mem_cons.1 hy with rfl | hy
    · exact hi
    · simp [he] at hy
  · exact ⟨g, .refl, by simp⟩

end Session

end DataBinding
