import DataBinding.Proofs.Twins.Evaluate

/-!
# Twins react alike

Whatever happens to twins leads to twins and leaves the same tasks (`ReactAlike`). This is true of each operation that
does not look at systems (`Twins.react`), and of those that evaluate: binding, telling a listener of a change, and
assigning.
-/

namespace DataBinding

namespace Session

variable {E : Effect → Prop} {g g' : Ghost} {s t u : Session} {r r' : Reaction} {b : BindingId} {x : Binding}
  {y : Bound}

/-- The reactions leave twins and the same tasks, which refer to nothing but what is in hand. -/
def ReactAlike (g : Ghost) (s : Session) (r r' : Reaction) : Prop :=
  ∃ g', Moves (fun _ => True) (g, s) (g', r.session) ∧ (∀ k ∈ r.tasks, Within g'.hand (sharedInTask k)) ∧
    Twins g'.hand r.session r'.session ∧ r'.tasks.map (Task.recast Reply.blank) = r.tasks.map (Task.recast Reply.blank)

theorem Moves.any {p q : Ghost × Session} (h : Moves E p q) : Moves (fun _ => True) p q := h.mono fun _ _ => trivial

theorem ReactAlike.of_moves (hm : Moves E (g, s) (g', u)) (hr : ReactAlike g' u r r') : ReactAlike g s r r' := by
  obtain ⟨g'', hm', htasks, htwins, hsame⟩ := hr
  exact ⟨g'', hm.any.trans hm', htasks, htwins, hsame⟩

theorem ReactAlike.andThen (hr : ReactAlike g s r r') {ts ts' : List Task} (hts : ∀ k ∈ ts, sharedInTask k = [])
    (heq : ts'.map (Task.recast Reply.blank) = ts.map (Task.recast Reply.blank)) :
    ReactAlike g s (r.andThen ts) (r'.andThen ts') := by
  obtain ⟨g', hm, htasks, htwins, hsame⟩ := hr
  refine ⟨g', hm, fun k hk => ?_, htwins, ?_⟩
  · rcases List.mem_append.1 hk with hk | hk
    · exact htasks k hk
    · rw [hts k hk]
      exact within_nil
  · simp only [Reaction.andThen, List.map_append, hsame, heq]

theorem Twins.still (h : Twins g.hand s t) : ReactAlike g s { session := s } { session := t } :=
  ⟨g, .refl, by simp, h, rfl⟩

/-- A reaction that is the same whatever the systems are. -/
theorem Twins.react (h : Twins g.hand s t) (hs : Sound g.hand s) {f : Session → Reaction}
    (hf : ∀ u (ρ : Reply → Reply) (X : Table SystemId System), f (u.recast ρ X) = (f u).recast ρ X)
    (hr : ReactsWith E g s (f s)) : ReactAlike g s (f s) (f t) := by
  obtain ⟨g', hm, htasks⟩ := hr
  refine ⟨g', hm.any, htasks,
    h.keep hs (f := fun u => (f u).session) (fun u ρ X => congrArg Reaction.session (hf u ρ X)) hm, ?_⟩
  have hrest : f t.rest = f s.rest := congrArg f h.rest
  unfold Session.rest at hrest
  rw [hf, hf] at hrest
  exact congrArg Reaction.tasks hrest

theorem Twins.write (h : Twins g.hand s t) (hs : Sound g.hand s) {o : ObjectId} (ho : g.hand (.object o)) (n : String)
    {v : Value} (hv : Within g.hand (sharedIn v)) : ReactAlike g s (s.write o n v) (t.write o n v) :=
  h.react hs (f := fun u => u.write o n v) (fun _ _ _ => recast_write o n v) (reacts_write hs ho n hv)

/-! ### Bindings -/

/-- Twins evaluate a binding again to the same. -/
theorem Twins.readAgain (h : Twins g.hand s t) (hs : Sound g.hand s) {x' : Binding} (hb : s.bindings.get? b = some x')
    (hy : x'.state = some y) (hsystem : x'.system = x.system) :
    ∃ g', Moves (fun _ => True) (g, s) (g', (s.readAgain b x y).1) ∧ g'.hand (.object x'.target) ∧
      (∀ v, (s.readAgain b x y).2 = .ok v → Within g'.hand (sharedIn v)) ∧
      (t.readAgain b x y).2 = (s.readAgain b x y).2 ∧
      Twins g'.hand (s.readAgain b x y).1 (t.readAgain b x y).1 := by
  let next (u : Session) : Session := u.modifyBinding b fun x => { x with observations := x.observations.nextRound }
  have hm : Moves Silent (g, s) (g, next s) :=
    .modifyBinding fun z hz => within_withObservations (hs.outside.bindings hz) fun e he => he
  have hnext : Twins g.hand (next s) (next t) := h.keep hs (fun _ _ _ => recast_modifyBinding b _) hm
  -- A registry is only asked for streams that are alive, so what is in hand is cut down to what is held.
  have hnarrow := (hs.moves hm).narrow
  have hheld : Twins (· ∈ (next s).held) (next s) (next t) := hnext.mono (hs.moves hm).held
  have hb' : (next s).bindings.get? b = some { x' with observations := x'.observations.nextRound } := by
    simp [next, Session.modifyBinding, Table.get?_modify, hb]
  obtain ⟨htarget, -, -, hbound⟩ := within_binding.1 (hnarrow.outside.bindings hb')
  obtain ⟨hscope, hhost⟩ := hbound y hy
  obtain ⟨g', heval, hreads, hentries, hv, hresult, htwins⟩ :=
    Twins.evaluate (g := { g with hand := (· ∈ (next s).held) }) hheld hnarrow (fun k hk => isAlive_iff.2 hk) hscope
      hhost x.system x.flags .everything x.expression
  have hobserve := Moves.observe (hnarrow.moves heval) (b := b) (y := x.system) (fun z hz => ?_) hreads hentries
  · have hresult' : ((next t).evaluate x.system x.flags y.scope y.host .everything x.expression).2.2 =
        ((next s).evaluate x.system x.flags y.scope y.host .everything x.expression).2.2 := congrArg Prod.snd hresult
    have hreads' : (t.readAgain b x y).1 =
        ((next t).evaluate x.system x.flags y.scope y.host .everything x.expression).1.observe b
          ((next s).evaluate x.system x.flags y.scope y.host .everything x.expression).2.1 := by
      rw [← congrArg Prod.fst hresult]
      rfl
    refine ⟨g', ?_, heval.hand_mono htarget, hv, hresult', ?_⟩
    · exact hm.any.trans (.trans (.of_move trivial .narrowing) (heval.any.trans hobserve.any))
    · rw [hreads']
      exact htwins.keep (hnarrow.moves heval) (f := fun u => u.observe b _) (fun _ _ _ => recast_observe b _) hobserve
  · rw [bindings_evaluate, hb'] at hz
    obtain rfl := Option.some.inj hz
    exact hsystem

theorem Twins.refresh (h : Twins g.hand s t) (hs : Sound g.hand s) (b : BindingId) :
    ReactAlike g s (s.refresh b) (t.refresh b) := by
  have hbindings : t.bindings.get? b = s.bindings.get? b := by rw [h.bindings]
  cases hx : s.bindings.get? b with
  | none =>
    simp only [Session.refresh, hbindings, hx]
    exact h.still
  | some x =>
    cases hy : x.state with
    | none =>
      simp only [Session.refresh, hbindings, hx, hy]
      exact h.still
    | some y =>
      obtain ⟨g', hread, hg', hv, hresult, htwins⟩ := h.readAgain hs hx hy (x := x) rfl
      have hs' := hs.moves hread
      have hafter := concludes_afterRefresh (b := b) hs' hg' hv fun e he z hz => canFail_readAgain hx he hz
      rw [refresh_eq hx hy, refresh_eq (hbindings.trans hx) hy, hresult]
      refine .of_moves hread (htwins.react hs' (fun u ρ X => ?_) (hafter.reacts hs' fun _ => id))
      cases (s.readAgain b x y).2 with
      | ok v => simp only [afterRefresh, recast_clearStale, recast_modifyBinding, recast_writeTarget]
      | error e => rfl

theorem Twins.bind (h : Twins g.hand s t) (hs : Sound g.hand s) (hb : s.bindings.get? b = some x)
    (hscope : Within g.hand (sharedInScope y.scope)) (hhost : ∀ z, y.host = some z → Within g.hand (sharedInScope z)) :
    ReactAlike g s (s.bind b x y).1 (t.bind b x y).1 ∧ (t.bind b x y).2 = (s.bind b x y).2 := by
  by_cases hy : (x.state.any fun z => z.scope.id = y.scope.id) = true
  · unfold Session.bind
    rw [if_pos hy, if_pos hy]
    exact ⟨h.still, rfl⟩
  let start (u : Session) : Session := (u.unbind b).modifyBinding b fun x => { x with state := some y }
  have hunbind := Moves.unbind hs b
  have hstate : Moves Silent (g, s.unbind b) (g, start s) := by
    refine .withState (hs.moves hunbind) b _ fun z hz => ?_
    obtain rfl := Option.some.inj hz
    exact ⟨hscope, hhost⟩
  have hm := hunbind.trans hstate
  have hstart : Twins g.hand (start s) (start t) :=
    h.keep hs (f := start) (fun u ρ X => by simp only [start, recast_unbind, recast_modifyBinding]) hm
  obtain ⟨x', hx', htarget, hsystem⟩ := target_unbind hb
  have hb' : (start s).bindings.get? b = some { x' with state := some y } := by
    simp [start, Session.modifyBinding, Table.get?_modify, hx']
  obtain ⟨g', hread, hg', hv, hresult, htwins⟩ := hstart.readAgain (hs.moves hm) hb' rfl hsystem
  have hs' := (hs.moves hm).moves hread
  have hafter := concludes_afterBind (b := b) hs' (htarget ▸ hg') hv
  have hnew : (x.state.any fun z => z.scope.id = y.scope.id) = false := by simpa using hy
  rw [bind_eq hnew, bind_eq hnew]
  show ReactAlike g s (afterBind b x ((start s).readAgain b x y).2 ((start s).readAgain b x y).1).1
      (afterBind b x ((start t).readAgain b x y).2 ((start t).readAgain b x y).1).1 ∧
    (afterBind b x ((start t).readAgain b x y).2 ((start t).readAgain b x y).1).2 =
      (afterBind b x ((start s).readAgain b x y).2 ((start s).readAgain b x y).1).2
  rw [hresult]
  constructor
  · refine .of_moves (hm.any.trans hread)
      (htwins.react hs' (f := fun u => (afterBind b x ((start s).readAgain b x y).2 u).1) (fun u ρ X => ?_)
        (hafter.reacts hs' fun _ => id))
    cases ((start s).readAgain b x y).2 with
    | ok v => simp only [afterBind, recast_clearStale, recast_writeTarget]
    | error e =>
      simp only [afterBind, recast_modifyBinding, recast_clearObservations]
      rfl
  · cases ((start s).readAgain b x y).2 <;> rfl

/-- Twins assign through an expression alike, or fail alike. -/
theorem Twins.assign (h : Twins g.hand s t) (hs : Sound g.hand s) (ha : ∀ k, g.hand (.stream k) → s.isAlive k = true)
    {scope : Scope} {host : Option Scope} (hscope : Within g.hand (sharedInScope scope))
    (hhost : ∀ x, host = some x → Within g.hand (sharedInScope x)) (i : SystemId) (flags : EvalFlags) (e : Expr)
    {v : Value} (hv : Within g.hand (sharedIn v)) :
    (∀ x, s.assign i flags scope host e v = .error x → t.assign i flags scope host e v = .error x) ∧
      ∀ r, s.assign i flags scope host e v = .ok r →
        ∃ r', t.assign i flags scope host e v = .ok r' ∧ ReactAlike g s r r' := by
  obtain ⟨g', hm, hd, hresult, htwins⟩ := h.destination hs ha hscope hhost i flags e hv
  unfold Session.assign
  cases hdest : s.destination i flags scope host e v with
  | mk u result =>
    cases hdest' : t.destination i flags scope host e v with
    | mk u' result' =>
      rw [hdest, hdest'] at hresult htwins
      rw [hdest] at hm hd
      obtain rfl : result' = result := hresult
      cases result' with
      | error x => exact ⟨fun _ hx => hx, fun r hr => by cases hr⟩
      | ok d =>
        refine ⟨fun x hx => (by cases hx), fun r hr => ?_⟩
        obtain rfl := Except.ok.inj hr
        obtain ⟨ho, hd⟩ := hd d rfl
        exact ⟨_, rfl, .of_moves hm (htwins.write (hs.moves hm) ho d.name hd)⟩

theorem Twins.updateSource (h : Twins g.hand s t) (hs : Sound g.hand s)
    (ha : ∀ k, g.hand (.stream k) → s.isAlive k = true) (hb : s.bindings.get? b = some x) {v : Value}
    (hv : Within g.hand (sharedIn v)) :
    (∀ e, s.updateSource x v = .error e → t.updateSource x v = .error e) ∧
      ∀ r, s.updateSource x v = .ok r → ∃ r', t.updateSource x v = .ok r' ∧ ReactAlike g s r r' := by
  unfold Session.updateSource
  cases hy : x.state with
  | none => exact ⟨fun _ he => he, fun r hr => by cases hr⟩
  | some y =>
    obtain ⟨-, -, -, hbound⟩ := within_binding.1 (hs.outside.bindings hb)
    obtain ⟨hscope, hhost⟩ := hbound y hy
    obtain ⟨herror, hok⟩ := h.assign hs ha hscope hhost x.system x.flags x.expression hv
    dsimp only
    cases hr : s.assign x.system x.flags y.scope y.host x.expression v with
    | error e =>
      rw [herror e hr]
      exact ⟨fun _ he => he, fun r hr => by cases hr⟩
    | ok r =>
      obtain ⟨r', hr', halike⟩ := hok r hr
      rw [hr']
      refine ⟨fun e he => (by cases he), fun q hq => ⟨r', rfl, ?_⟩⟩
      obtain rfl := Except.ok.inj hq
      exact halike

/-! ### Listeners and sinks -/

theorem Twins.tell (h : Twins g.hand s t) (hs : Sound g.hand s) (new previous : Value) (l : Listener) :
    ReactAlike g s (s.tell new previous l) (t.tell new previous l) := by
  cases l with
  | binding b => exact (h.refresh hs b).andThen (by simp [sharedInTask]) rfl
  | recorder i =>
    exact h.react hs (f := fun u => u.tell new previous (.recorder i))
      (fun _ _ _ => recast_tell_recorder i new previous) (reacts_tell hs new previous (.recorder i))

theorem Twins.receive (h : Twins g.hand s t) (hs : Sound g.hand s) {e : StreamEvent}
    (he : Within g.hand (sharedInEvent e)) (k : Sink) : ReactAlike g s (s.receive e k) (t.receive e k) :=
  h.react hs (f := fun u => u.receive e k) (fun _ _ _ => recast_receive e k) (reacts_receive hs he k)

end Session

end DataBinding
