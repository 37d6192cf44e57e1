import DataBinding.Proofs.BoundWrites
import DataBinding.Proofs.Openings

/-!
# Attendance

A binding that evaluates holds what it has read, and an evaluation on its own lets it go again. So when either is done,
there are no more strays than before, and whoever was subscribed to a cold stream meanwhile is an observer that a
registry has entered for it (`Yields`): this is so when a binding is bound or told of a change (`yields_bind`,
`yields_refresh`), when an expression is evaluated (`yields_evaluateAlone`) and when the host asks for the observer of a
stream (`yields_observerFor`).
-/

namespace DataBinding

namespace Session

variable {new : List (Sink × String)} {os os' os'' : List ObserverId} {s t u : Session} {g g' : Ghost} {b : BindingId}
  {o : ObserverId} {x z : Binding} {y : Bound}

/-! ### What is written and told -/

theorem undisturbed_making (hm : Moves Making (g, s) (g', t)) : Undisturbed s t := by
  obtain ⟨objects, fresh, rfl, hfresh⟩ := making_eq hm
  exact undisturbed_store rfl hfresh

theorem undisturbed_notify (s : Session) (z : Source) (new previous : Value) :
    Undisturbed s (s.notify z new previous).session :=
  undisturbed_sweep s s.isPresent z

theorem tends_write (p : ObjectId) (n : String) (v : Value) : Tends [] os os s (s.write p n v).session := by
  have hput : Undisturbed s { s with store := s.store.setObject p ((s.store.object p).put n v) } :=
    undisturbed_store rfl
  unfold write
  dsimp only
  split
  · exact hput.tends.before (undisturbed_notify ..).tends
  · exact hput.tends

/-- What a stream does leaves it a subject, or the cold stream that it is. -/
theorem labelOf_setStream {st : Store} {i : StreamId} {x x' : Stream} (hx : st.streams.get? i = some x)
    (hlabel : x'.label? = x.label?) (j : StreamId) : (st.setStream i x').labelOf j = st.labelOf j := by
  simp only [Store.labelOf, Store.setStream, Table.get?_insert]
  split
  next hij =>
    subst hij
    rw [hx, Option.bind_some, Option.bind_some, hlabel]
  · rfl

theorem undisturbed_setStream {i : StreamId} {x x' : Stream} (hx : s.store.streams.get? i = some x)
    (hlabel : x'.label? = x.label?) : Undisturbed s { s with store := s.store.setStream i x' } :=
  undisturbed_store rfl (Nat.le_refl _) fun j _ => labelOf_setStream hx hlabel j

theorem undisturbed_emit (s : Session) (i : StreamId) (v : Value) : Undisturbed s (s.emit i v).session := by
  unfold emit
  split
  next x hx => exact undisturbed_setStream hx rfl
  · exact .refl s

theorem undisturbed_terminate (s : Session) (i : StreamId) (e : StreamEvent) :
    Undisturbed s (s.terminate i e).session := by
  unfold terminate
  split
  next x hx => exact undisturbed_setStream hx rfl
  · exact .refl s

theorem undisturbed_withEval {i : SystemId} {w : System} (hw : s.systems.get? i = some w) {a : EvalState}
    (h : Eval.Makes { store := s.store, registry := w.registry } a) : Undisturbed s (s.withEval i w a) where
  fresh := h.fresh
  sinks := by
    funext k
    cases k <;> simp only [subscriptionOf, withEval, h.observers]
  present p := by simp only [withEval, h.observers]
  released hr p z hp := hr (h.observers ▸ hp)
  labels j _ := by simp only [withEval, Store.labelOf, h.streams]
  entries j k p he := by
    rw [withEval, entryIn_insert, h.registry] at he
    split at he
    next hij =>
      subst hij
      exact (entryIn_of_get? hw k).trans he
    · exact he
  bindings _ := .inl
  records _ := .inl

/-- On the way to a place, and with writing to it, nobody is subscribed or let go. -/
theorem tends_assign {i : SystemId} {flags : EvalFlags} {scope : Scope} {host : Option Scope} {e : Expr} {v : Value}
    {r : Reaction} (hr : s.assign i flags scope host e v = .ok r) : Tends [] os os s r.session := by
  obtain ⟨w, t, d, hw, hmakes, rfl⟩ := exists_makes_of_assign hr
  exact (undisturbed_withEval hw hmakes).tends.before (tends_write _ _ _)

theorem tends_updateSource {v : Value} {r : Reaction} (hr : s.updateSource x v = .ok r) :
    Tends [] os os s r.session := by
  obtain ⟨y, -, hassign⟩ := exists_assign_of_updateSource hr
  exact tends_assign hassign

/-! ### Evaluations -/

/-- Sinks may have been subscribed to cold streams, which are observers that registries have for these, and the strays
that were among `os` are among `os'`. -/
def Yields (os os' : List ObserverId) (s t : Session) : Prop :=
  Attended os s → ∃ new gone, Turnover new gone s t ∧ Handed new t ∧ Attended os' t

theorem Tends.yields (h : Tends [] os os' s t) : Yields os os' s t := by
  intro hs
  obtain ⟨⟨gone, hgone⟩, ht⟩ := h hs
  exact ⟨[], gone, hgone, nofun, ht⟩

theorem Tends.and_then (h : Tends [] os os' s t) (h' : Yields os' os'' t u) : Yields os os'' s u := by
  intro hs
  obtain ⟨⟨gone, hgone⟩, ht⟩ := h hs
  obtain ⟨new, gone', hgone', hnew, hu⟩ := h' ht
  exact ⟨[] ++ new, _, hgone.trans hs ht hgone', hnew, hu⟩

/-- What registries have entered stays so while they are left alone. -/
theorem Yields.before (h : Yields os os' s t) (h' : Tends [] os' os'' t u) (hsystems : u.systems = t.systems) :
    Yields os os'' s u := by
  intro hs
  obtain ⟨new, gone, hgone, hnew, ht⟩ := h hs
  obtain ⟨⟨gone', hgone'⟩, hu⟩ := h' ht
  refine ⟨new ++ [], _, hgone.trans hs ht hgone', fun k label hk => ?_, hu⟩
  obtain ⟨o, y, i, rfl, he, hl⟩ := hnew k label (by simpa using hk)
  exact ⟨o, y, i, rfl, hsystems ▸ he, (hgone'.labels (ht.entered he).1).trans hl⟩

theorem undisturbed_nextRound (s : Session) (b : BindingId) : Undisturbed s (s.nextRound b) :=
  undisturbed_modifyBinding s b fun _ _ _ => rfl

/-- An evaluation of a bound binding leaves as strays what it has read through. -/
theorem tends_evaluateBound (h : Sound (· ∈ s.held) s) (hz : s.bindings.get? b = some z) (hy : z.state = some y)
    (x : Binding) {t : Session} {reads : List Read} {result : Except ExpressionError Value}
    (ht : (s.nextRound b).evaluateBound x y = (t, reads, result)) :
    (∀ os, Tends (openedIn t.store reads s.store.fresh) os (observersRead reads ++ os) (s.nextRound b) t) ∧
      (∀ i o, .stream i o ∈ reads → t.systems.entryIn x.system i = some o) ∧ t.Readable reads := by
  have hsound := h.nextRound b
  obtain ⟨hscope, hhost⟩ := (within_binding.1 (hsound.outside.bindings (get?_nextRound hz))).2.2.2 y hy
  exact tends_evaluate hsound hscope hhost x.system x.flags .everything x.expression ht

theorem yields_readAgain (h : Sound (· ∈ s.held) s) (hz : s.bindings.get? b = some z) (hy : z.state = some y)
    (x : Binding) : Yields os os s (s.readAgain b x y).1 := by
  obtain ⟨heval, hentries, hreadable⟩ := tends_evaluateBound h hz hy x rfl
  have hget' := get?_evaluateBound hz x y
  have hyield : Yields os (observersRead ((s.nextRound b).evaluateBound x y).2.1 ++ os) (s.nextRound b)
      ((s.nextRound b).evaluateBound x y).1 := fun hs => by
    obtain ⟨⟨gone, hgone⟩, ht⟩ := heval os hs
    exact ⟨_, gone, hgone, handed_openedIn hentries, ht⟩
  rw [readAgain_eq]
  exact (undisturbed_nextRound s b).tends.and_then
    (hyield.before (tends_observe hget' hreadable) (observed_observe hreadable hget').systems)

theorem tends_writeTarget (b : BindingId) (x : Binding) (v : Value) :
    Tends [] os os s (s.writeTarget b x v).session := by
  have hvalue : Undisturbed s (s.modifyBinding b fun x => { x with value := v }) :=
    undisturbed_modifyBinding s b fun _ _ _ => rfl
  exact hvalue.tends.before (tends_write _ _ _)

/-- A binding that is told of a change holds what it has read, and gives up the rest. -/
theorem yields_refresh (h : Sound (· ∈ s.held) s) (b : BindingId) : Yields os os s (s.refresh b).session := by
  cases hx : s.bindings.get? b with
  | none =>
    simp only [refresh, hx]
    exact Tends.refl.yields
  | some x =>
    cases hy : x.state with
    | none =>
      simp only [refresh, hx, hy]
      exact Tends.refl.yields
    | some y =>
      have herror : ∀ (u : Session) (e? : Option BindError),
          Undisturbed u (u.modifyBinding b fun x => { x with lastError := e? }) :=
        fun u _ => undisturbed_modifyBinding u b fun _ _ _ => rfl
      rw [refresh_eq hx hy]
      refine (yields_readAgain h hx hy x).before ?_ ?_
      · cases (s.readAgain b x y).2 with
        | ok v => exact ((tends_clearStale b).before (herror ..).tends).before (tends_writeTarget b x v)
        | error e => exact (herror ..).tends
      · cases (s.readAgain b x y).2 with
        | ok v => simp only [afterRefresh, writeTarget, systems_write, modifyBinding, (steady_clearStale ..).systems]
        | error e => rfl

/-- A binding that is bound gives up what it has observed, and holds what it has read unless it is unbound again. -/
theorem yields_bind (h : Sound g.hand s) (hx : s.bindings.get? b = some x)
    (hscope : Within g.hand (sharedInScope y.scope)) (hhost : ∀ w, y.host = some w → Within g.hand (sharedInScope w)) :
    Yields os os s (s.bind b x y).1.session := by
  cases hnew : x.state.any fun w => w.scope.id = y.scope.id with
  | true =>
    rw [bind_of_bound hnew]
    exact Tends.refl.yields
  | false =>
    have hstate : ∀ (u : Session) (y? : Option Bound),
        Undisturbed u (u.modifyBinding b fun x => { x with state := y? }) :=
      fun u _ => undisturbed_modifyBinding u b fun _ _ _ => rfl
    have hsound : Sound g.hand (s.boundTo b y) := h.moves (Moves.boundTo h b hscope hhost)
    obtain ⟨x', hx', -⟩ := target_unbind hx
    have hget : (s.boundTo b y).bindings.get? b = some { x' with state := some y } := by
      rw [boundTo, get?_modifyBinding, if_pos rfl, hx', Option.map_some]
    have hbound : Tends [] os os s (s.boundTo b y) := (tends_unbind b).before (hstate ..).tends
    have hread : Yields os os s ((s.boundTo b y).readAgain b x y).1 :=
      hbound.and_then (yields_readAgain hsound.narrow hget rfl x)
    cases he : ((s.boundTo b y).readAgain b x y).2 with
    | ok v =>
      rw [bind_of_ok hnew (Prod.ext rfl he)]
      refine hread.before ((tends_clearStale b).before (tends_writeTarget b x v)) ?_
      simp only [writeTarget, systems_write, modifyBinding, (steady_clearStale ..).systems]
    | error e =>
      rw [bind_of_error hnew (Prod.ext rfl he)]
      refine hread.before ((hstate ..).tends.before (tends_clearObservations b)) ?_
      exact (steady_clearObservations ..).systems

theorem tends_letGoRead (reads : List Read) : Tends [] (observersRead reads ++ os) os s (s.letGoRead reads) := by
  induction reads generalizing s with
  | nil => exact .refl
  | cons r rs ih =>
    cases r with
    | property => exact ih
    | stream i o =>
      simp only [letGoRead]
      split
      next hmem =>
        -- the observer is let go when it comes up again
        intro h
        refine ih (h.mono fun p hp => ?_)
        rcases List.mem_cons.1 hp with rfl | hp
        · exact List.mem_append_left _ (mem_observersRead.2 ⟨i, by simpa using hmem⟩)
        · exact hp
      · exact (tends_letGoObserver o).before ih

theorem systems_letGoRead (s : Session) (reads : List Read) : (s.letGoRead reads).systems = s.systems := by
  induction reads generalizing s with
  | nil => rfl
  | cons r rs ih =>
    cases r with
    | property => exact ih s
    | stream i o =>
      simp only [letGoRead]
      split
      · exact ih s
      · rw [ih, (steady_letGoObserver ..).systems]

/-- An evaluation on its own lets go what it has read. -/
theorem yields_evaluateAlone (h : Sound (· ∈ s.held) s) {scope : Scope} {host : Option Scope}
    (hscope : Within (· ∈ s.held) (sharedInScope scope))
    (hhost : ∀ x, host = some x → Within (· ∈ s.held) (sharedInScope x)) (i : SystemId) (w : System) (place : Place)
    (options : EvalOptions) (e : Expr) : Yields os os s (s.evaluateAlone i w place scope host options e).session := by
  unfold evaluateAlone
  dsimp only
  split
  · exact Tends.refl.yields
  next e' _ =>
    obtain ⟨heval, hentries, -⟩ := tends_evaluate h hscope hhost i place.flags
      (if options.tracks then .everything else .nothing) e' rfl
    refine Yields.before (fun hs => ?_) (tends_letGoRead _) (systems_letGoRead ..)
    obtain ⟨⟨gone, hgone⟩, ht⟩ := heval os hs
    exact ⟨_, gone, hgone, handed_openedIn hentries, ht⟩

/-! ### Observers that the host asks for -/

/-- The observer of a stream that a registry hands out is its own from then on, and nothing else may hold it yet. -/
theorem yields_observerFor (h : Sound (· ∈ s.held) s) {j : SystemId} {w : System} (hw : s.systems.get? j = some w)
    {i : StreamId} (hi : .stream i ∈ s.held) {st : Store} {r : Registry}
    (hr : w.registry.observerFor s.isAlive s.store i = (st, r, o)) :
    (∀ os, Yields os (o :: os) s (s.withEval j w { store := st, registry := r })) ∧
      (st.observers.get? o).isSome := by
  let a : EvalState := { store := st, registry := r, reads := [.stream i o] }
  have hopens : Eval.Opens { store := s.store, registry := w.registry } a := Eval.opens_observerFor hr
  have hget := Registry.get?_observerFor s.isAlive s.store w.registry i
  rw [hr] at hget
  obtain ⟨hentry, hlive⟩ := Registry.get?_eq_some.1 hget
  have hopened : ∀ os, Tends (openedIn st a.reads s.store.fresh) os (o :: os) s (s.withEval j w a) := by
    refine fun os => tends_withEval hw hopens fun k p hk => ?_
    obtain ⟨rfl, -⟩ := Read.stream.inj (List.mem_singleton.1 hk)
    exact Nat.lt_of_lt_of_le (h.old (h.known hi)) hopens.fresh
  refine ⟨fun os hs => ?_, Store.isSome_of_isLive hlive⟩
  obtain ⟨⟨gone, hgone⟩, ht⟩ := hopened os hs
  have hhanded : Handed (openedIn st a.reads s.store.fresh) (s.withEval j w a) := by
    refine handed_openedIn (t := s.withEval j w a) (y := j) fun k p hk => ?_
    obtain ⟨rfl, rfl⟩ := Read.stream.inj (List.mem_singleton.1 hk)
    exact (entryIn_of_get? (get?_withEval ..) k).trans hentry
  exact ⟨_, gone, hgone, hhanded, ht⟩

theorem steady_nameObserver (s : Session) (name : String) (o : ObserverId) :
    Steady { s with names := s.names.insert ⟨.observer, name⟩ o.number } (s.setName name o.ref) := by
  simp only [setName, Id.ref]
  split
  · exact .refl
  · unfold letGo
    split
    · exact .refl
    · exact steady_letGoObserver ..

/-- An observer that is given a name is no stray. -/
theorem tends_nameObserver (name : String) (ho : (s.store.observers.get? o).isSome) :
    Tends [] (o :: os) os s (s.setName name o.ref) := by
  intro h
  have hthere : ∀ p : ObserverId, o.ref = p.ref → (s.store.observers.get? p).isSome := fun p hp => by
    obtain rfl : o = p := congrArg (fun r : Ref => (⟨r.number⟩ : ObserverId)) hp
    exact ho
  obtain ⟨hturn, ht⟩ := tends_setName name hthere h
  refine ⟨hturn, { ht with held := fun {p} hp => (ht.held hp).elim .inl fun hos => ?_ }⟩
  rcases List.mem_cons.1 hos with rfl | hos
  · refine .inl (.name (n := name) ?_)
    rw [(steady_nameObserver ..).names]
    exact (Table.get?_insert ..).trans (if_pos rfl)
  · exact .inr hos

end Session

end DataBinding
