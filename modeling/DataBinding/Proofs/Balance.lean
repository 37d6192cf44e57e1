import DataBinding.Proofs.Owing

/-!
# Registrations and records balance

In a session whose only listeners are bindings, registrations and records balance (`Balanced`). Here it is shown of all
that a binding does, being bound, told, let go, and of what others do beside it.
-/

namespace DataBinding

mutual

/-- The command leaves it to bindings to listen and to keep records; if `alone`, it also leaves it to them to have
observers opened and destroyed. -/
def Command.defers (alone : Bool) : Command → Bool
  | .makeCollection .. | .makeRecord .. | .listen .. | .unlisten .. | .record .. => false
  | .observe .. | .shutdown .. | .destroy .. | .evaluate .. => !alone
  | .subscribe _ _ actions _ => Command.allDefer alone actions
  | _ => true

def Command.allDefer (alone : Bool) : List Command → Bool
  | [] => true
  | c :: cs => c.defers alone && Command.allDefer alone cs

end

theorem Command.allDefer_iff {alone : Bool} {cs : List Command} :
    Command.allDefer alone cs = true ↔ ∀ c ∈ cs, c.defers alone = true := by
  induction cs with
  | nil => simp [Command.allDefer]
  | cons c cs ih => simp [Command.allDefer, ih]

/-- The task tells bindings alone, and leaves to them what the commands leave. -/
def Task.Defers (alone : Bool) : Task → Prop
  | .notify _ _ _ rest => ∀ l ∈ rest, ∃ b, l = .binding b
  | .perform _ rest => ∀ c ∈ rest, c.defers alone = true
  | .deliver .. | .report .. | .keep _ | .adopt .. => True

namespace Session

variable {alone : Bool} {g : Ghost} {s t u : Session} {b c : BindingId} {x z : Binding} {y : Bound} {r : Read}
  {reads : List Read} {o : ObserverId} {P : Prop}

/-- The registrations are those of the records, and what is not bound observes nothing. -/
structure Balanced (alone : Bool) (s : Session) : Prop where
  owes (b : BindingId) : Owes (alone = true) b [] [] s
  idle {c : BindingId} {x : Binding} : s.bindings.get? c = some x → x.isBound = false → x.observations.entries = []
  old {c : BindingId} : (s.bindings.get? c).isSome → c.number < s.store.fresh
  records (i : RecordId) : s.records.get? i = none
  actions {k : SinkId} {x : Handler} : s.handlers.get? k = some x → ∀ c ∈ x.actions, c.defers alone = true

theorem Balanced.actions_of_apart (h : Balanced alone s) (ha : Apart s t) {k : SinkId} {x : Handler}
    (hx : t.handlers.get? k = some x) : ∀ c ∈ x.actions, c.defers alone = true := by
  have hactions := ha.actions k
  rw [hx] at hactions
  obtain ⟨z, hz, hsame⟩ := Option.map_eq_some_iff.1 hactions.symm
  rw [← hsame]
  exact h.actions hz

theorem exists_of_dues (h : (t.bindings.get? c).map Binding.dues = (s.bindings.get? c).map Binding.dues)
    (hx : t.bindings.get? c = some x) :
    ∃ z, s.bindings.get? c = some z ∧ z.isBound = x.isBound ∧ z.observations.entries = x.observations.entries := by
  rw [hx] at h
  obtain ⟨z, hz, hd⟩ := Option.map_eq_some_iff.1 h.symm
  exact ⟨z, hz, congrArg Prod.fst hd, congrArg Prod.snd hd⟩

theorem isSome_of_dues (h : (t.bindings.get? c).map Binding.dues = (s.bindings.get? c).map Binding.dues)
    (hc : (t.bindings.get? c).isSome) : (s.bindings.get? c).isSome := by
  obtain ⟨x, hx⟩ := Option.isSome_iff_exists.1 hc
  obtain ⟨z, hz, -⟩ := exists_of_dues h hx
  rw [hz]
  rfl

/-! ### What happens to one binding -/

/-- No other binding is touched. -/
structure Elsewhere (b : BindingId) (s t : Session) : Prop extends Apart s t where
  dues {c : BindingId} : b ≠ c → (t.bindings.get? c).map Binding.dues = (s.bindings.get? c).map Binding.dues
  present : (t.bindings.get? b).isSome → (s.bindings.get? b).isSome

theorem Elsewhere.trans (h : Elsewhere b s t) (h' : Elsewhere b t u) : Elsewhere b s u where
  toApart := h.toApart.trans h'.toApart
  dues hbc := (h'.dues hbc).trans (h.dues hbc)
  present hb := h.present (h'.present hb)

theorem Elsewhere.of_bindings (ha : Apart s t) (hb : t.bindings = s.bindings) : Elsewhere b s t :=
  ⟨ha, fun _ => by rw [hb], fun hsome => by rwa [hb] at hsome⟩

theorem Elsewhere.refl : Elsewhere b s s := .of_bindings .refl rfl

theorem Still.elsewhere (h : Still P s t) (b : BindingId) : Elsewhere b s t where
  toApart := h.toApart
  dues _ := h.dues _
  present hb := isSome_of_dues (h.dues b) hb

theorem elsewhere_modifyBinding (s : Session) (b : BindingId) (f : Binding → Binding) :
    Elsewhere b s (s.modifyBinding b f) where
  toApart := (steady_modifyBinding s b f).apart
  dues hbc := by rw [get?_modifyBinding, if_neg hbc]
  present hb := by
    rw [get?_modifyBinding, if_pos rfl, Option.isSome_map] at hb
    exact hb

theorem elsewhere_releaseAll (s : Session) (es : List Observation) (b : BindingId) : Elsewhere b s (s.releaseAll es) :=
  .of_bindings (steady_releaseAll ..).apart (bindings_releaseAll ..)

theorem elsewhere_clearStale (s : Session) (b : BindingId) : Elsewhere b s (s.clearStale b) := by
  unfold clearStale
  split
  · exact .refl
  · exact (elsewhere_modifyBinding ..).trans (elsewhere_releaseAll ..)

theorem elsewhere_clearObservations (s : Session) (b : BindingId) : Elsewhere b s (s.clearObservations b) := by
  unfold clearObservations
  split
  · exact .refl
  · exact (elsewhere_modifyBinding ..).trans (elsewhere_releaseAll ..)

theorem elsewhere_unbind (s : Session) (b : BindingId) : Elsewhere b s (s.unbind b) := by
  unfold unbind
  split
  · exact .refl
  · split
    · exact (elsewhere_modifyBinding ..).trans (elsewhere_clearObservations ..)
    · exact .refl

theorem fresh_observe (s : Store) (x : Observations) (l : Listener) (z : Source) :
    (x.observe s l z).1.fresh = s.fresh := by
  unfold Observations.observe
  split
  · rfl
  · cases z with
    | observer o =>
      simp only [Store.listen]
      split <;> rfl
    | property | collection => rfl

theorem elsewhere_observe (hx : s.bindings.get? b = some x) (reads : List Read) : Elsewhere b s (s.observe b reads) := by
  induction reads generalizing s x with
  | nil => exact .refl
  | cons r reads ih =>
    have hget := get?_observeOne s b x r b
    rw [if_pos rfl] at hget
    rw [observe_cons hx]
    have hone : Elsewhere b s (s.observeOne b x r) := by
      refine ⟨⟨rfl, fun _ => rfl, Nat.le_of_eq (fresh_observe ..).symm⟩, fun hbc => ?_, fun _ => by rw [hx]; rfl⟩
      rw [get?_observeOne, if_neg hbc]
    exact hone.trans (ih hget)

theorem apart_evaluate (h : s.store.Tidy) (i : SystemId) (flags : EvalFlags) (scope : Scope) (host : Option Scope)
    (w : Watch) (e : Expr) : Apart s (s.evaluate i flags scope host w e).1 where
  records := by
    unfold evaluate
    split <;> rfl
  actions _ := by
    unfold evaluate
    split <;> rfl
  fresh := (evaluatesTo_evaluate h ..).spares.fresh

/-- What is left to be shown of the binding that something has happened to. -/
theorem Balanced.elsewhere (h : Balanced alone s) (he : Elsewhere b s t) (ho : Owes (alone = true) b [] [] t)
    (hidle : ∀ x, t.bindings.get? b = some x → x.isBound = false → x.observations.entries = []) : Balanced alone t where
  owes c := ho.change c
  idle {c x} hx hbound := by
    by_cases hbc : b = c
    · subst hbc
      exact hidle x hx hbound
    · obtain ⟨z, hz, hzbound, hentries⟩ := exists_of_dues (he.dues hbc) hx
      rw [← hentries]
      exact h.idle hz (hzbound.trans hbound)
  old {c} hc := by
    refine Nat.lt_of_lt_of_le (h.old ?_) he.fresh
    by_cases hbc : b = c
    · subst hbc
      exact he.present hc
    · exact isSome_of_dues (he.dues hbc) hc
  records i := he.records ▸ h.records i
  actions := h.actions_of_apart he.toApart

theorem Balanced.still (h : Balanced alone s) (hst : Still (alone = true) s t) : Balanced alone t := by
  refine h.elsewhere (b := ⟨0⟩) (hst.elsewhere _) ((h.owes _).still hst) fun x hx hbound => ?_
  obtain ⟨z, hz, hzbound, hentries⟩ := exists_of_dues (hst.dues _) hx
  rw [← hentries]
  exact h.idle hz (hzbound.trans hbound)

/-- Bindings are as they were, and only registrations have changed. -/
theorem Balanced.of_owes (h : Balanced alone s) (ha : Apart s t) (hb : t.bindings = s.bindings)
    (ho : Owes (alone = true) b [] [] t) : Balanced alone t :=
  h.elsewhere (.of_bindings ha hb) ho fun _ hx hbound => h.idle (hb ▸ hx) hbound

/-! ### Evaluating, binding and unbinding -/

/-- An evaluation opens observers that nobody listens to yet. -/
theorem Owes.evaluated (h : Owes P b [] [] s) (he : EvaluatesTo s t reads) (hb : t.bindings = s.bindings)
    (hlive : P → ∀ i o, .stream i o ∈ reads → t.store.isLive o = true) : Owes P b [] reads t where
  registered := by
    intro z n l
    rw [he.spares.listeners, h.registered]
    unfold Records
    rw [hb]
  distinct := .nil
  apart hmem := by cases hmem
  heard hP o := by
    have hheard : s.store.isLive o = true ↔ (s.store.listeners (.observer o)).entries ≠ [] := by simpa using h.heard hP o
    rw [he.spares.listeners]
    constructor
    · intro ho
      exact (he.live ho).imp_left hheard.1
    · rintro (hne | ⟨i, hi⟩)
      · exact he.spares.isLive (hheard.2 hne)
      · exact hlive hP i o hi

/-- A bound binding evaluates again and enters what it has read. -/
theorem Owes.readAgain (h : Owes P b [] [] s) (hs : Sound (· ∈ s.held) s) (hd : Dated s)
    (hz : s.bindings.get? b = some z) (hy : z.state = some y) (x : Binding) :
    Owes P b [] [] (s.readAgain b x y).1 ∧ Elsewhere b s (s.readAgain b x y).1 ∧
      ∃ r, (s.readAgain b x y).1.bindings.get? b = some { z with observations := r } := by
  have hround : Still P s (s.nextRound b) := by
    refine still_modifyBinding ?_ b
    exact fun _ => rfl
  have heval := evaluatesTo_evaluateBound (hs.tidy_nextRound hd b) x y
  have hread := hs.hasRead_nextRound hz hy x
  have hget := get?_evaluateBound hz x y
  have hbindings : ((s.nextRound b).evaluateBound x y).1.bindings = (s.nextRound b).bindings := bindings_evaluate ..
  have howes : Owes P b [] ((s.nextRound b).evaluateBound x y).2.1 ((s.nextRound b).evaluateBound x y).1 :=
    (h.still hround).evaluated heval hbindings fun _ _ _ hi => hread.live hi
  obtain ⟨r, hr, -⟩ := (observed_observe hread.readable hget).record
  have heval' : Elsewhere b (s.nextRound b) ((s.nextRound b).evaluateBound x y).1 :=
    .of_bindings (apart_evaluate (hs.tidy_nextRound hd b) ..) hbindings
  rw [readAgain_eq]
  exact ⟨howes.observe hget hread.readable, (hround.elsewhere b).trans (heval'.trans (elsewhere_observe hget _)), r, hr⟩

/-- Whether a binding is bound is not a matter of registrations. -/
theorem Owes.withState (h : Owes P b [] [] s) (y? : Option Bound) :
    Owes P b [] [] (s.modifyBinding b fun x => { x with state := y? }) := by
  refine h.congr (fun c z n => ?_) (fun _ => rfl) fun _ _ => rfl
  unfold Records
  rw [get?_modifyBinding]
  split
  next hbc =>
    subst hbc
    cases s.bindings.get? b <;> simp
  · rfl

theorem Owes.unbind (h : Owes P b [] [] s) : Owes P b [] [] (s.unbind b) := by
  unfold Session.unbind
  split
  · exact h
  · split
    · exact (h.withState none).clearObservations
    · exact h

/-- What is unbound is not bound and observes nothing. -/
theorem Balanced.exists_unbind (h : Balanced alone s) (hx : s.bindings.get? b = some x) :
    ∃ z, (s.unbind b).bindings.get? b = some z ∧ z.request = x.request ∧ z.state = none ∧ z.observations.entries = [] := by
  unfold Session.unbind
  simp only [hx]
  split
  · have hstate : (s.modifyBinding b fun x => { x with state := none }).bindings.get? b =
        some { x with state := none } := by rw [get?_modifyBinding, if_pos rfl, hx, Option.map_some]
    exact ⟨_, get?_clearObservations hstate, rfl, rfl, rfl⟩
  next hbound =>
    have hbound : x.isBound = false := by simpa using hbound
    exact ⟨x, hx, rfl, by simpa [Binding.isBound] using hbound, h.idle hx hbound⟩

theorem Balanced.unbind (h : Balanced alone s) (b : BindingId) : Balanced alone (s.unbind b) := by
  refine h.elsewhere (elsewhere_unbind s b) (h.owes b).unbind fun z hz _ => ?_
  obtain ⟨x, hx⟩ := Option.isSome_iff_exists.1 ((elsewhere_unbind s b).present (by rw [hz]; rfl))
  obtain ⟨z', hz', -, -, hnil⟩ := h.exists_unbind hx
  obtain rfl := Option.some.inj (hz.symm.trans hz')
  exact hnil

theorem Balanced.clearStale (h : Balanced alone s) (b : BindingId) : Balanced alone (s.clearStale b) := by
  refine h.elsewhere (elsewhere_clearStale s b) (h.owes b).clearStale fun z hz hbound => ?_
  unfold Session.clearStale at hz
  split at hz
  · exact h.idle hz hbound
  next x hx =>
    rw [bindings_releaseAll, get?_modifyBinding, if_pos rfl, hx, Option.map_some] at hz
    obtain rfl := Option.some.inj hz
    have hnil := h.idle hx hbound
    simp [Observations.fresh, hnil]

theorem Balanced.readAgain (h : Balanced alone s) (hs : Sound (· ∈ s.held) s) (hd : Dated s)
    (hz : s.bindings.get? b = some z) (hy : z.state = some y) (x : Binding) : Balanced alone (s.readAgain b x y).1 := by
  obtain ⟨howes, helse, r, hget⟩ := (h.owes b).readAgain hs hd hz hy x
  refine h.elsewhere helse howes fun w hw hbound => ?_
  obtain rfl := Option.some.inj (hget.symm.trans hw)
  simp [Binding.isBound, hy] at hbound

/-- Registrations and records balance just before a binding that is being bound is evaluated. -/
theorem Balanced.boundTo (h : Balanced alone s) (hs : Sound (· ∈ s.held) s) (hd : Dated s)
    (hx : s.bindings.get? b = some x) (hscope : Within (· ∈ s.held) (sharedInScope y.scope))
    (hhost : ∀ z, y.host = some z → Within (· ∈ s.held) (sharedInScope z)) :
    Balanced alone (s.boundTo b y) ∧ Sound (· ∈ (s.boundTo b y).held) (s.boundTo b y) ∧ Dated (s.boundTo b y) ∧
      ∃ z, (s.boundTo b y).bindings.get? b = some z ∧ z.request = x.request ∧ z.state = some y := by
  obtain ⟨z, hz, hrequest, -, -⟩ := h.exists_unbind hx
  have hget : (s.boundTo b y).bindings.get? b = some { z with state := some y } := by
    rw [Session.boundTo, get?_modifyBinding, if_pos rfl, hz, Option.map_some]
  have hm : Moves Silent (s.bare, s) (s.bare, s.boundTo b y) := by
    refine (Moves.unbind hs b).trans (.withState (hs.moves (Moves.unbind (g := s.bare) hs b)) b _ fun y' hy' => ?_)
    obtain rfl := Option.some.inj hy'
    exact ⟨hscope, hhost⟩
  refine ⟨?_, (hs.moves hm).narrow, hd.moves hm, _, hget, hrequest, rfl⟩
  refine (h.unbind b).elsewhere (elsewhere_modifyBinding ..) (((h.unbind b).owes b).withState _) fun z' hz' hbound => ?_
  obtain rfl := Option.some.inj (hget.symm.trans hz')
  cases hbound

/-! ### Reactions -/

/-- The session after it is balanced, and the tasks tell bindings alone. -/
structure Balances (alone : Bool) (r : Reaction) : Prop where
  session : Balanced alone r.session
  tasks {t : Task} : t ∈ r.tasks → t.Defers alone

theorem Balances.done (h : Balanced alone s) : Balances alone { session := s } := ⟨h, fun ht => by cases ht⟩

theorem Balances.andThen {q : Reaction} (h : Balances alone q) {ts : List Task} (hts : ∀ t ∈ ts, t.Defers alone) :
    Balances alone (q.andThen ts) where
  session := h.session
  tasks ht := (List.mem_append.1 ht).elim h.tasks (hts _)

theorem Balanced.notify (h : Balanced alone s) (z : Source) (new previous : Value) :
    Balances alone (s.notify z new previous) where
  session := h.still ((h.owes ⟨0⟩).still_notify ..)
  tasks ht := by
    obtain rfl := List.mem_singleton.1 ht
    intro l hl
    obtain ⟨p, hp, rfl⟩ := List.mem_map.1 hl
    have hafter : Balanced alone (s.notify z new previous).session := h.still ((h.owes ⟨0⟩).still_notify ..)
    obtain ⟨c, hc, -⟩ := (hafter.owes ⟨0⟩).registered.1 hp
    exact ⟨c, hc⟩

theorem Balanced.write (h : Balanced alone s) (p : ObjectId) (n : String) (v : Value) :
    Balances alone (s.write p n v) := by
  unfold Session.write
  dsimp only
  have hput : Balanced alone { s with store := s.store.setObject p ((s.store.object p).put n v) } := h.still still_put
  split
  · exact hput.notify ..
  · exact .done hput

theorem Balanced.writeTarget (h : Balanced alone s) (b : BindingId) (x : Binding) (v : Value) :
    Balances alone (s.writeTarget b x v) := by
  have hvalue : Still (alone = true) s (s.modifyBinding b fun x => { x with value := v }) := by
    refine still_modifyBinding ?_ b
    exact fun _ => rfl
  exact (h.still hvalue).write ..

/-- A binding that is told of a change evaluates again. -/
theorem Balanced.refresh (h : Balanced alone s) (hs : Sound (· ∈ s.held) s) (hd : Dated s) (b : BindingId) :
    Balances alone (s.refresh b) := by
  have herror : ∀ {t : Session} (e? : Option BindError), Balanced alone t →
      Balanced alone (t.modifyBinding b fun x => { x with lastError := e? }) := by
    intro t e? ht
    refine ht.still (still_modifyBinding ?_ b)
    exact fun _ => rfl
  unfold Session.refresh
  split
  · exact .done h
  next x hx =>
    split
    · exact .done h
    next y hy =>
      have hread := h.readAgain hs hd hx hy x
      split
      next t v ht =>
        rw [ht] at hread
        exact (herror none (hread.clearStale b)).writeTarget ..
      next t e ht =>
        rw [ht] at hread
        exact .done (herror _ hread)

theorem Balanced.bind (h : Balanced alone s) (hs : Sound (· ∈ s.held) s) (hd : Dated s)
    (hx : s.bindings.get? b = some x) (hscope : Within (· ∈ s.held) (sharedInScope y.scope))
    (hhost : ∀ z, y.host = some z → Within (· ∈ s.held) (sharedInScope z)) : Balances alone (s.bind b x y).1 := by
  cases hnew : x.state.any fun z => z.scope.id = y.scope.id with
  | true =>
    rw [bind_of_bound hnew]
    exact .done h
  | false =>
    obtain ⟨hbalanced, hs', hd', z, hz, -, hy⟩ := h.boundTo hs hd hx hscope hhost
    have hread := hbalanced.readAgain hs' hd' hz hy x
    obtain ⟨-, -, r, hget⟩ := (hbalanced.owes b).readAgain hs' hd' hz hy x
    cases ht : (s.boundTo b y).readAgain b x y with
    | mk t result =>
      rw [ht] at hread hget
      cases result with
      | ok v =>
        rw [bind_of_ok hnew ht]
        exact (hread.clearStale b).writeTarget ..
      | error e =>
        -- the binding is unbound again, and observes nothing
        have hnone : (t.modifyBinding b fun x => { x with state := none }).bindings.get? b =
            some { z with observations := r, state := none } := by
          rw [get?_modifyBinding, if_pos rfl, hget, Option.map_some]
        have helse := (elsewhere_modifyBinding t b fun x => { x with state := none }).trans (elsewhere_clearObservations _ b)
        rw [bind_of_error hnew ht]
        refine .done (hread.elsewhere helse ((hread.owes b).withState none).clearObservations fun z' hz' _ => ?_)
        rw [get?_clearObservations hnone] at hz'
        obtain rfl := Option.some.inj hz'
        rfl

/-! ### Letting go -/

theorem apart_setHandler {k : SinkId} {x x' : Handler} (hx : s.handlers.get? k = some x)
    (hactions : x'.actions = x.actions) : Apart s { s with handlers := s.handlers.insert k x' } where
  records := rfl
  actions k' := by
    rw [Table.get?_insert]
    split
    next hk =>
      subst hk
      rw [hx]
      exact congrArg some hactions
    · rfl
  fresh := Nat.le_refl _

theorem Balanced.letGo (h : Balanced alone s) (r : Ref) : Balanced alone (s.letGo r) := by
  unfold Session.letGo
  split
  · exact h
  · split
    · refine h.of_owes (b := ⟨0⟩) (steady_letGoObserver ..).apart (bindings_letGoObserver ..) ?_
      exact (h.owes _).letGoObserver fun e he => by cases he
    · exact h.still (.of_store ⟨rfl, fun _ => rfl, Nat.le_refl _⟩ rfl rfl rfl rfl)
    · split
      · exact h
      next x hx =>
        have hgone : Elsewhere ⟨r.number⟩ s { s with bindings := s.bindings.erase ⟨r.number⟩ } := by
          refine ⟨⟨rfl, fun _ => rfl, Nat.le_refl _⟩, fun hbc => ?_, fun _ => by rw [hx]; rfl⟩
          rw [Table.get?_erase, if_neg hbc]
        refine h.elsewhere (hgone.trans (elsewhere_releaseAll ..)) ((h.owes _).giveUpAll hx).releaseAll fun z hz => ?_
        rw [bindings_releaseAll, Table.get?_erase, if_pos rfl] at hz
        cases hz
    · -- the host has no records
      simp only [h.records]
      exact h
    · split
      · exact h
      next k hk =>
        have hclosed : Still (alone = true) s { s with
            handlers := s.handlers.insert ⟨r.number⟩ { k with subscription := .closed } } :=
          .of_store (apart_setHandler hk rfl) rfl rfl rfl rfl
        exact h.still (hclosed.trans (still_close ..))
    all_goals exact h

theorem Balanced.setName (h : Balanced alone s) (name : String) (r : Ref) : Balanced alone (s.setName name r) := by
  have hname : Balanced alone { s with names := s.names.insert ⟨r.thing, name⟩ r.number } :=
    h.still (.of_store ⟨rfl, fun _ => rfl, Nat.le_refl _⟩ rfl rfl rfl rfl)
  unfold Session.setName
  dsimp only
  split
  · exact hname
  · exact hname.letGo _

/-! ### Listeners and sinks -/

theorem still_noteEvent (s : Session) (label : String) (e : StreamEvent) : Still P s (s.noteEvent label e) := by
  cases e <;> exact .of_store ⟨rfl, fun _ => rfl, Nat.le_refl _⟩ rfl rfl rfl rfl

theorem Balanced.receive (h : Balanced alone s) (e : StreamEvent) (k : Sink) : Balances alone (s.receive e k) := by
  cases k with
  | observer o =>
    simp only [Session.receive]
    split
    · exact .done h
    next d hd =>
      have htold : Balanced alone { s with store := s.store.setObserver o (d.receive e).1 } := h.still (still_told hd e)
      split
      · exact .done htold
      · exact (htold.notify ..).andThen fun t ht => by rw [List.mem_singleton.1 ht]; trivial
  | handler k =>
    simp only [Session.receive]
    split
    · exact .done h
    next x hx =>
      have hnoted := h.still (still_noteEvent s x.label e)
      have hx' : (s.noteEvent x.label e).handlers.get? k = some x := by cases e <;> exact hx
      split
      · exact .done hnoted
      · refine ⟨hnoted.still (.of_store (apart_setHandler hx' rfl) rfl rfl rfl rfl), fun ht => ?_⟩
        obtain rfl := List.mem_singleton.1 ht
        exact h.actions hx

theorem Balanced.emit (h : Balanced alone s) (i : StreamId) (v : Value) : Balances alone (s.emit i v) := by
  unfold Session.emit
  split
  · refine ⟨h.still (.of_store ⟨rfl, fun _ => rfl, Nat.le_refl _⟩ rfl rfl rfl rfl), fun ht => ?_⟩
    obtain rfl := List.mem_singleton.1 ht
    trivial
  · exact .done h

theorem Balanced.terminate (h : Balanced alone s) (i : StreamId) (e : StreamEvent) :
    Balances alone (s.terminate i e) := by
  unfold Session.terminate
  split
  · refine ⟨h.still (.of_store ⟨rfl, fun _ => rfl, Nat.le_refl _⟩ rfl rfl rfl rfl), fun ht => ?_⟩
    obtain rfl := List.mem_singleton.1 ht
    trivial
  · exact .done h

end Session

end DataBinding
