import DataBinding.Proofs.Attendance

/-!
# Subscriptions from one act to the next

From one act to the next, sinks are subscribed to cold streams and subscriptions are released, and no observer is left
that nothing holds (`Upholds`). This goes for every command (`minds_answer`) and for every task, so for every act of a
run (`upholds_act`). Whoever was subscribed can be told from the session after it (`Takes`).
-/

namespace DataBinding

namespace Session

variable {os : List ObserverId} {s t u : Session} {ts : List Task} {b : BindingId} {i : RecordId}
  {o : ObserverId} {x : Binding} {r : Observations}

/-- The sink has been subscribed to a cold stream: a registry has the observer for it, or the sink of the host has its
subscription still. -/
def Takes (s : Session) : Sink → String → Prop
  | .observer o, label => ∃ y i, s.systems.entryIn y i = some o ∧ s.store.labelOf i = some label
  | .handler k, label => s.coldOf (.handler k) = some label

/-- From `s` to `t`, sinks have been subscribed to cold streams and subscriptions have been released, and there are no
strays. -/
def Upholds (s t : Session) : Prop :=
  Attended [] s → ∃ new gone, Turnover new gone s t ∧ (∀ k label, (k, label) ∈ new → t.Takes k label) ∧ Attended [] t

theorem Yields.upholds (h : Yields [] [] s t) : Upholds s t := by
  intro hs
  obtain ⟨new, gone, hgone, hnew, ht⟩ := h hs
  refine ⟨new, gone, hgone, fun k label hk => ?_, ht⟩
  obtain ⟨o, y, i, rfl, he, hl⟩ := hnew k label hk
  exact ⟨y, i, he, hl⟩

theorem Tends.upholds (h : Tends [] [] [] s t) : Upholds s t := h.yields.upholds

theorem Tends.and_upholds (h : Tends [] [] [] s t) (h' : Upholds t u) : Upholds s u := by
  intro hs
  obtain ⟨⟨gone, hgone⟩, ht⟩ := h hs
  obtain ⟨new, gone', hgone', hnew, hu⟩ := h' ht
  exact ⟨[] ++ new, _, hgone.trans hs ht hgone', hnew, hu⟩

/-- None of the tasks holds an observer. -/
def Keepless (ts : List Task) : Prop := ∀ o : ObserverId, .keep o.ref ∉ ts

@[simp] theorem keepless_nil : Keepless [] := fun _ => List.not_mem_nil

@[simp] theorem keepless_cons {t : Task} : Keepless (t :: ts) ↔ (∀ o : ObserverId, t ≠ .keep o.ref) ∧ Keepless ts := by
  simp only [Keepless, List.mem_cons, not_or, forall_and, eq_comm, ne_eq]

/-- What is answered upholds the session, and the tasks hold no observer that is not there. -/
structure Minds (s t : Session) (ts : List Task) : Prop where
  upholds : Upholds s t
  there {o : ObserverId} : .keep o.ref ∈ ts → (t.store.observers.get? o).isSome

theorem Minds.push (h : Minds s t ts) : Upholds s (t.push ts) := by
  intro hs
  obtain ⟨new, gone, hgone, hnew, ht⟩ := h.upholds hs
  have hpush : Tends [] [] ([] ++ []) t (t.push ts) :=
    tends_pending (fun o ho => (List.mem_append.1 ho).symm.imp_right h.there) fun o ho =>
      .inl (List.mem_append_right _ ho)
  obtain ⟨⟨gone', hgone'⟩, hu⟩ := hpush ht
  refine ⟨new ++ [], _, hgone.trans hs ht hgone', fun k label hk => ?_, hu⟩
  have htakes := hnew k label (by simpa using hk)
  cases k <;> exact htakes

theorem Yields.minds (h : Yields [] [] s t) (hts : Keepless ts) : Minds s t ts :=
  ⟨h.upholds, fun ho => absurd ho (hts _)⟩

theorem Tends.minds (h : Tends [] [] [] s t) (hts : Keepless ts) : Minds s t ts := h.yields.minds hts

theorem Tends.done (h : Tends [] [] [] s t) : Minds s t [] := h.minds keepless_nil

theorem minds_refl : Minds s s [] := Tends.refl.done

/-! ### New things -/

theorem tends_newObject (ps : Table String Value) : Tends [] os os s { s with store := (s.store.newObject ps).1 } :=
  Undisturbed.tends (undisturbed_store rfl (Nat.le_succ _))

theorem tends_newStream (x : Stream) (name : String) :
    Tends [] os os s ({ s with store := (s.store.newStream x).1 }.setName name (s.store.newStream x).2.ref) := by
  have hnew : Undisturbed s { s with store := (s.store.newStream x).1 } := by
    refine undisturbed_store rfl (Nat.le_succ _) fun j hj => ?_
    simp only [Store.newStream, Table.get?_insert]
    rw [if_neg]
    rintro rfl
    exact Nat.lt_irrefl _ hj
  exact hnew.tends.before (tends_setNameOf name (by decide))

/-- A new binding observes nothing. -/
theorem tends_newBinding (hx : x.observations.entries = []) :
    Tends [] os os s { s.fresh.1 with bindings := s.bindings.insert ⟨s.store.fresh⟩ x } := by
  intro h
  have hfresh : Undisturbed s s.fresh.1 := { fresh := Nat.le_succ _ }
  have hnone : s.bindings.get? ⟨s.store.fresh⟩ = none := by
    by_contra hsome
    exact Nat.lt_irrefl _ (h.bindings (Option.isSome_iff_ne_none.2 hsome))
  exact hfresh.tends.before (tends_bindings (s := s.fresh.1) (.add hnone hx (Nat.lt_succ_self _))) h

theorem tends_newRecord :
    Tends [] os os s { s.fresh.1 with records := s.records.insert ⟨s.store.fresh⟩ {} } := by
  intro h
  have hfresh : Undisturbed s s.fresh.1 := { fresh := Nat.le_succ _ }
  have hnone : s.records.get? ⟨s.store.fresh⟩ = none := by
    by_contra hsome
    exact Nat.lt_irrefl _ (h.records (Option.isSome_iff_ne_none.2 hsome))
  exact hfresh.tends.before (tends_records (s := s.fresh.1) (.add hnone rfl (Nat.lt_succ_self _))) h

theorem minds_addBinding (name : String) (hx : x.observations.entries = []) :
    Minds s (s.addBinding name x).session (s.addBinding name x).tasks :=
  ((tends_newBinding hx).before (tends_setNameOf name (by decide))).done

/-- A system has entered no observer when it is made. -/
theorem undisturbed_newSystem (s : Session) (config : Config) :
    Undisturbed s { s.fresh.1 with systems := s.systems.insert ⟨s.store.fresh⟩ (System.ofConfig config) } where
  fresh := Nat.le_succ _
  entries y i o he := by
    dsimp only at he
    rw [entryIn_insert] at he
    split at he
    · cases he
    · exact he

/-! ### Systems -/

/-- A registry may have forgotten observers. -/
theorem undisturbed_registry {y : SystemId} {z z' : System} (hz : s.systems.get? y = some z)
    (h : ∀ i o, z'.registry.entries.get? i = some o → z.registry.entries.get? i = some o) :
    Undisturbed s { s with systems := s.systems.insert y z' } := by
  refine undisturbed_systems fun y' i o he => ?_
  rw [entryIn_insert] at he
  split at he
  next hy =>
    subst hy
    exact (entryIn_of_get? hz i).trans (h i o he)
  · exact he

theorem tends_destroyAll (ps : List ObserverId) : Tends [] os os s (ps.foldl destroy s) := by
  induction ps generalizing s with
  | nil => exact .refl
  | cons p ps ih => exact (tends_destroy p).before ih

theorem tends_shutdown {y : SystemId} {z : System} (hz : s.systems.get? y = some z) :
    Tends [] os os s (s.shutdown y z) := by
  have hempty : Undisturbed s
      { s with systems := s.systems.insert y { z with registry := { z.registry with entries := ∅ } } } :=
    undisturbed_registry hz fun _ _ he => by cases he
  exact hempty.tends.before (tends_destroyAll _)

theorem yields_observe (h : Sound (· ∈ s.held) s) {system stream : String} {name : Option String} :
    Ensures (fun a => Minds s a.session a.tasks) (s.answerObserve system stream name) := by
  refine .bind_pair fun y z hz => .bind fun i hi => ?_
  have hheld : .stream i ∈ s.held := h.outside.stream hi
  obtain ⟨hyields, hthere⟩ :=
    yields_observerFor (o := (z.registry.observerFor s.isAlive s.store i).2.2) h (get?_of_system? hz) hheld rfl
  cases name with
  | none =>
    have hleft := (hyields []).before (tends_letGoObserver _) (steady_letGoObserver ..).systems
    exact .some (hleft.minds keepless_nil)
  | some name =>
    have hnamed := (hyields []).before (tends_nameObserver name hthere) (steady_nameObserver ..).systems
    exact .some (hnamed.minds keepless_nil)

/-! ### Records of the host -/

/-- The host names the observers that it means. -/
theorem Holding.source? {z : HostSource} (hz : s.source? z = some (.observer o)) : Holding s o := by
  cases z with
  | observer name =>
    obtain ⟨p, hp, hsource⟩ := Option.map_eq_some_iff.1 hz
    obtain ⟨n, hn, rfl⟩ := Option.map_eq_some_iff.1 hp
    obtain rfl := Source.observer.inj hsource
    exact .name hn
  | property | collection =>
    obtain ⟨p, -, hsource⟩ := Option.map_eq_some_iff.1 hz
    cases hsource

/-- A record of the host enters a source, which is there if it is an observer. -/
theorem tends_record (hr : s.records.get? i = some r) (l : Listener) {z : Source}
    (hz : ∀ o, z = .observer o → (s.store.observers.get? o).isSome) :
    Tends [] os os s
      { s with store := (r.observe s.store l z).1, records := s.records.insert i (r.observe s.store l z).2 } := by
  have hlisten : Undisturbed s { s with store := (r.observe s.store l z).1 } := by
    unfold Observations.observe
    split
    · exact .refl s
    · exact undisturbed_listen s l z
  have henter : Tends [] os ([] ++ os) { s with store := (r.observe s.store l z).1 }
      { s with store := (r.observe s.store l z).1, records := s.records.insert i (r.observe s.store l z).2 } :=
    tends_records (.enter hr rfl fun o ho => (hlisten.present o).trans (hz o ho))
  exact hlisten.tends.before henter

/-- A record of the host gives up some of its entries. -/
theorem tends_giveUpEntries {r' : Observations} {es : List Observation} (hr : s.records.get? i = some r)
    (hkeep : ∀ e ∈ r'.entries, e ∈ r.entries) (hgive : ∀ e ∈ r.entries, e ∈ r'.entries ∨ e ∈ es) :
    Tends [] os os s ({ s with records := s.records.insert i r' }.releaseAll es) := by
  have hlose : Tends [] os (observersIn es ++ os) s { s with records := s.records.insert i r' } :=
    tends_records (.giveUp hr hkeep hgive)
  exact hlose.before (tends_releaseAll es)

/-! ### Sinks of the host -/

/-- A new sink is subscribed, to a cold stream maybe. -/
theorem upholds_subscribe (i : StreamId) (name : String) (actions : List Command) (limit : Nat) {st : Store}
    {c : Subscription} {es : List StreamEvent}
    (hst : s.fresh.1.store.subscribe i (.handler ⟨s.store.fresh⟩) = (st, c, es)) :
    Upholds s
      { s with
        store := st
        handlers := s.handlers.insert ⟨s.store.fresh⟩ { label := name, actions, limit, subscription := c } } := by
  let k : SinkId := ⟨s.store.fresh⟩
  let t : Session :=
    { s with
      store := st
      handlers := s.handlers.insert k { label := name, actions, limit, subscription := c } }
  intro h
  have hc : c.label? = s.store.labelOf i := by
    have hlabel := Eval.label?_subscription s.fresh.1.store i (.handler k)
    rw [Store.subscription, hst] at hlabel
    exact hlabel
  obtain ⟨hobservers, hfresh, hlabels⟩ : st.observers = s.store.observers ∧ st.fresh = s.store.fresh + 1 ∧
      ∀ j, st.labelOf j = s.store.labelOf j := by
    rw [Store.subscribe_eq] at hst
    obtain ⟨rfl, -⟩ := Prod.mk.inj hst
    exact ⟨rfl, rfl, fun j => Eval.label?_subscribed i j (.handler k) s.fresh.1.store⟩
  have hcold : ∀ k', t.coldOf k' = if .handler k = k' then s.store.labelOf i else s.coldOf k' := by
    intro k'
    rw [← hc]
    cases k' with
    | observer o => simp only [coldOf, subscriptionOf, t, hobservers, reduceCtorEq, if_false]
    | handler k' =>
      simp only [coldOf, subscriptionOf, t, Table.get?_insert, Sink.handler.injEq]
      split <;> rfl
  have hnew : ∀ {k' label}, (k', label) ∈ ((s.store.labelOf i).toList.map fun l => (Sink.handler k, l)) ↔
      Sink.handler k = k' ∧ s.store.labelOf i = some label := by
    intro k' label
    simp [and_comm]
  have hturn : Turnover ((s.store.labelOf i).toList.map fun l => (Sink.handler k, l)) [] s t := by
    refine .taking (hfresh ▸ Nat.le_succ _) rfl ?old ?new ?kept (fun _ => hlabels _) .inl
    case old =>
      intro k' label hk
      rw [hcold, if_neg, hk]
      rintro rfl
      exact Nat.lt_irrefl _ (h.sinks hk)
    case new =>
      intro k' label hk
      obtain ⟨rfl, hl⟩ := hnew.1 hk
      exact ⟨(hcold _).trans ((if_pos rfl).trans hl), Nat.le_refl _, hfresh ▸ Nat.lt_succ_self _⟩
    case kept =>
      intro k' label hk
      rw [hcold] at hk
      split at hk
      next he => exact .inr (hnew.2 ⟨he, hk⟩)
      · exact .inl hk
  have hholding : ∀ o, Holding t o ↔ Holding s o := fun o => holding_congr rfl rfl rfl rfl
  refine ⟨_, _, hturn, fun k' label hk => ?_, h.turnover hturn (fun o ho => ?_) (fun o ho => ?_) (fun o x hx => ?_)
    (fun o ho => ?_) (fun _ => .inl) fun _ => .inl⟩
  · obtain ⟨rfl, hl⟩ := hnew.1 hk
    exact (hcold _).trans ((if_pos rfl).trans hl)
  · exact hobservers ▸ h.present ((hholding o).1 ho)
  · exact (h.held (hobservers ▸ ho)).imp_left (hholding o).2
  · exact h.released (hobservers ▸ hx)
  · exact .inl (hobservers ▸ ho)

/-! ### Commands -/

theorem keepless_write (s : Session) (p : ObjectId) (n : String) (v : Value) : Keepless (s.write p n v).tasks := by
  unfold write
  dsimp only
  split <;> simp [notify]

/-- What a write and a hold on the binding come to. -/
theorem Keepless.andThen {q : Reaction} (hq : Keepless q.tasks) (b : BindingId) :
    Keepless (q.andThen [.keep b.ref]).tasks := by
  intro o ho
  rcases List.mem_append.1 ho with ho | ho
  · exact hq o ho
  · simp [Id.ref] at ho

theorem keepless_assign {i : SystemId} {flags : EvalFlags} {scope : Scope} {host : Option Scope} {e : Expr} {v : Value}
    {q : Reaction} (hq : s.assign i flags scope host e v = .ok q) : Keepless q.tasks := by
  obtain ⟨t, d, -, rfl⟩ := exists_write_of_assign hq
  exact keepless_write _ _ _ _

theorem keepless_updateSource {v : Value} {q : Reaction} (hq : s.updateSource x v = .ok q) : Keepless q.tasks := by
  obtain ⟨y, -, hassign⟩ := exists_assign_of_updateSource hq
  exact keepless_assign hassign

theorem keepless_bind (s : Session) (b : BindingId) (x : Binding) (y : Bound) : Keepless (s.bind b x y).1.tasks := by
  cases hnew : x.state.any fun w => w.scope.id = y.scope.id with
  | true =>
    rw [bind_of_bound hnew]
    exact keepless_nil
  | false =>
    cases he : ((s.boundTo b y).readAgain b x y).2 with
    | ok v =>
      rw [bind_of_ok hnew (Prod.ext rfl he)]
      exact keepless_write _ _ _ _
    | error e =>
      rw [bind_of_error hnew (Prod.ext rfl he)]
      exact keepless_nil

theorem keepless_emit (s : Session) (i : StreamId) (v : Value) : Keepless (s.emit i v).tasks := by
  unfold emit
  split <;> simp

theorem keepless_terminate (s : Session) (i : StreamId) (e : StreamEvent) : Keepless (s.terminate i e).tasks := by
  unfold terminate
  split <;> simp

theorem tends_making {g g' : Ghost} (hm : Moves Making (g, s) (g', t)) : Tends [] [] [] s t :=
  (undisturbed_making hm).tends

theorem tends_valueOf? (h : Sound (· ∈ s.held) s) {value : HostValue} {v : Value} (hv : s.valueOf? value = some (t, v)) :
    Tends [] [] [] s t := by
  obtain ⟨g', hm, -⟩ := made_valueOf? (g := s.bare) value h hv
  exact tends_making hm

section

variable {a : Answer} (h : Sound (· ∈ s.held) s)

include h

theorem minds_makeSubject {name : String} {initial : Option HostValue} (ha : s.answerMakeSubject name initial = some a) :
    Minds s a.session a.tasks := by
  simp only [answerMakeSubject] at ha
  obtain ⟨⟨t, x⟩, hx, ha⟩ := Option.bind_eq_some_iff.1 ha
  obtain rfl := Option.some.inj ha
  obtain ⟨g', hm, -⟩ := made_subjectOf? (g := s.bare) h hx
  exact ((tends_making hm).before (tends_newStream _ name)).done

theorem minds_makeScope {name context : String} {parent override : Option String}
    (ha : s.answerMakeScope name context parent override = some a) : Minds s a.session a.tasks := by
  simp only [answerMakeScope] at ha
  obtain ⟨c, -, ha⟩ := Option.bind_eq_some_iff.1 ha
  obtain ⟨outer, -, ha⟩ := Option.bind_eq_some_iff.1 ha
  obtain ⟨⟨t, o⟩, ho, ha⟩ := Option.bind_eq_some_iff.1 ha
  obtain rfl := Option.some.inj ha
  obtain ⟨g', hm, -⟩ := made_override? (g := s.bare) h ho
  have hscoped : ∀ y, Undisturbed t { t.fresh.1 with scopes := t.scopes.insert ⟨t.store.fresh⟩ y } :=
    fun y => { fresh := Nat.le_succ _ }
  exact ((tends_making hm).before ((hscoped _).tends.before (tends_setNameOf name (by decide)))).done

theorem minds_notify {collection : String} {new previous : HostValue}
    (ha : s.answerNotify collection new previous = some a) : Minds s a.session a.tasks := by
  simp only [answerNotify] at ha
  obtain ⟨c, -, ha⟩ := Option.bind_eq_some_iff.1 ha
  obtain ⟨⟨t, v⟩, hv, ha⟩ := Option.bind_eq_some_iff.1 ha
  obtain ⟨⟨u, w⟩, hw, ha⟩ := Option.bind_eq_some_iff.1 ha
  obtain rfl := Option.some.inj ha
  obtain ⟨g', hm, -⟩ := made_valueOf? (g := s.bare) new h hv
  obtain ⟨g'', hm', -⟩ := made_valueOf? previous (Sound.making h hm) hw
  refine ((tends_making (hm.trans hm')).before (undisturbed_notify u (.collection c) v w).tends).minds ?_
  simp [Reaction.answer, Session.notify]

theorem minds_evaluate {expression : HostExpr} {place : Place} {options : EvalOptions}
    (ha : s.answerEvaluate expression place options = some a) : Minds s a.session a.tasks := by
  cases answer_evaluate ha with
  | refused => exact minds_refl
  | @evaluated i y scope host _ hscope hhost e =>
    have hyields : Yields [] [] s (s.evaluateAlone i y place scope host options e).session :=
      yields_evaluateAlone h (h.outside.scope hscope) (h.outside.host hhost) i y place options e
    refine hyields.minds ?_
    unfold evaluateAlone
    dsimp only
    split <;> exact keepless_nil

theorem minds_assign {expression : HostExpr} {place : Place} {value : HostValue}
    (ha : s.answerAssign expression place value = some a) : Minds s a.session a.tasks := by
  cases answer_assign ha with
  | refused => exact minds_refl
  | accepted _ _ hv hr => exact ((tends_valueOf? h hv).before (tends_assign hr)).minds (keepless_assign hr)
  | failed hv => exact (tends_valueOf? h hv).done

theorem minds_updateSource {binding : String} {value : HostValue}
    (ha : s.answerUpdateSource binding value = some a) : Minds s a.session a.tasks := by
  cases answer_updateSource ha with
  | @accepted b _ _ _ _ _ hv hr =>
    exact ((tends_valueOf? h hv).before (tends_updateSource hr)).minds ((keepless_updateSource hr).andThen b)
  | failed hv => exact (tends_valueOf? h hv).done

theorem minds_bind {binding scope : String} {host : Option String} (ha : s.answerBind binding scope host = some a) :
    Minds s a.session a.tasks := by
  have hyields : ∀ {b x k k'}, s.binding? binding = some (b, x) → s.scope? scope = some k → s.host? host = some k' →
      Yields [] [] s (s.bind b x { scope := k, host := k' }).1.session :=
    fun hb hscope hhost => yields_bind (g := s.bare) h (get?_of_binding? hb) (h.outside.scope hscope)
      (h.outside.host hhost)
  cases answer_bind ha with
  | @bound b x k k' r hb hscope hhost hr =>
    have hkeepless := keepless_bind s b x { scope := k, host := k' }
    have hr' := hyields hb hscope hhost
    rw [hr] at hkeepless hr'
    exact hr'.minds (hkeepless.andThen b)
  | @failed b x k k' r e hb hscope hhost hr =>
    have hkeepless := keepless_bind s b x { scope := k, host := k' }
    have hr' := hyields hb hscope hhost
    rw [hr] at hkeepless hr'
    exact hr'.minds hkeepless

end

theorem MakeAnswer.minds {name system target : String} {a : Answer} (ha : MakeAnswer s name system target a) :
    Minds s a.session a.tasks := by
  cases ha with
  | refused => exact minds_refl
  | made _ _ hx => exact minds_addBinding name (by rw [hx.observations])

theorem minds_record {record : String} {source : HostSource} {recorder : String} {a : Answer}
    (ha : s.answerRecord record source recorder = some a) : Minds s a.session a.tasks := by
  simp only [answerRecord] at ha
  obtain ⟨⟨i, r⟩, hr, ha⟩ := Option.bind_eq_some_iff.1 ha
  obtain ⟨z, hz, ha⟩ := Option.bind_eq_some_iff.1 ha
  obtain ⟨l, -, ha⟩ := Option.bind_eq_some_iff.1 ha
  obtain rfl := Option.some.inj ha
  refine ⟨fun hs => ?_, fun ho => by cases ho⟩
  have hthere : ∀ o, z = .observer o → (s.store.observers.get? o).isSome :=
    fun o ho => hs.present (.source? (ho ▸ hz))
  exact (tends_record (get?_of_record? hr) (.recorder l) hthere).upholds hs

/-- Every command upholds the session. -/
theorem minds_answer (h : Sound (· ∈ s.held) s) (d : Command) :
    Ensures (fun a => Minds s a.session a.tasks) (s.answer? d) := by
  have hsound : Sound s.bare.hand s := h
  cases d with
  | makeObject name properties =>
    refine .bind_pair fun t ps hps => ?_
    obtain ⟨g', hm, -⟩ := made_propertiesOf? properties hsound hps
    exact .some (((tends_making hm).before ((tends_newObject _).before (tends_setNameOf name (by decide)))).done)
  | makeSubject => exact fun _ => minds_makeSubject h
  | makeCold name events =>
    refine .bind_pair fun t es hes => ?_
    obtain ⟨g', hm, -⟩ := made_eventsOf? events hsound hes
    exact .some (((tends_making hm).before (tends_newStream _ name)).done)
  | makeScope => exact fun _ => minds_makeScope h
  | makeSystem name config =>
    simp only [answer?, answerMakeSystem]
    split
    · exact .some minds_refl
    · exact .some (((undisturbed_newSystem s config).tends.before (tends_setNameOf name (by decide))).done)
  | makeRecorder name =>
    have hnew : ∀ y, Undisturbed s { s.fresh.1 with recorders := s.recorders.insert ⟨s.store.fresh⟩ y } :=
      fun y => { fresh := Nat.le_succ _ }
    exact .some (((hnew _).tends.before (tends_setNameOf name (by decide))).done)
  | makeCollection name =>
    have hnew : Undisturbed s
        { s with store := { s.store with
            fresh := s.store.fresh + 1, collections := s.store.collections.insert ⟨s.store.fresh⟩ {} } } :=
      undisturbed_store rfl (Nat.le_succ _)
    exact .some ((hnew.tends.before (tends_setNameOf name (by decide))).done)
  | makeRecord name => exact .some ((tends_newRecord.before (tends_setNameOf name (by decide))).done)
  | makeFromAttribute => exact fun _ ha => (answer_makeFromAttribute ha).minds
  | makeBinding => exact fun _ ha => (answer_makeBinding ha).minds
  | addConverter =>
    refine .bind_pair fun i y hy => .some ?_
    have hinsert : ∀ cs, Undisturbed s { s with systems := s.systems.insert i { y with converters := cs } } :=
      fun cs => undisturbed_registry (get?_of_system? hy) fun _ _ => id
    exact (hinsert _).tends.done
  | drop what name =>
    simp only [answer?, answerDrop]
    split
    · exact .some minds_refl
    next n hn => exact .some (tends_drop what name hn).done
  | get | has | keys | setValue | describe => exact .bind fun _ _ => .some minds_refl
  | same | peek | resolve => exact .bind fun _ _ => .bind fun _ _ => .some minds_refl
  | set =>
    refine .bind fun _ _ => .bind_pair fun t v hv => .some ?_
    exact ((tends_valueOf? h hv).before (tends_write _ _ _)).minds (keepless_write _ _ _ _)
  | listen =>
    refine .bind fun z _ => .bind fun r _ => ?_
    exact .some ((undisturbed_listen s (.recorder r) z).tends.before (Undisturbed.tends {})).done
  | unlisten => exact .bind fun _ _ => .bind fun _ _ => .some (tends_unlisten _ _).done
  | notify => exact fun _ => minds_notify h
  | next =>
    refine .bind fun _ _ => .bind_pair fun t v hv => .some ?_
    exact ((tends_valueOf? h hv).before (undisturbed_emit ..).tends).minds (keepless_emit _ _ _)
  | fail | complete =>
    exact .bind fun _ _ => .some ((undisturbed_terminate ..).tends.minds (keepless_terminate _ _ _))
  | subscribe name stream actions limit =>
    refine .bind fun i _ => .some ⟨upholds_subscribe i name actions limit rfl, fun {o} ho => ?_⟩
    simp at ho
  | unsubscribe =>
    refine .bind fun k _ => .bind fun x hx => ?_
    exact .some (tends_giveUp hx).done
  | observe => exact yields_observe h
  | prune =>
    refine .bind_pair fun i y hy => .some (Undisturbed.tends (undisturbed_registry (get?_of_system? hy) ?_)).done
    intro j p hp
    simp only [Registry.prune, Registry.liveEntries, Table.get?_filter] at hp
    exact (Option.filter_eq_some_iff.1 hp).1
  | shutdown => exact .bind fun _ hy => .some (tends_shutdown (get?_of_system? hy)).done
  | destroy => exact .bind fun o _ => .some (tends_destroy o).done
  | evaluate => exact fun _ => minds_evaluate h
  | assign => exact fun _ => minds_assign h
  | updateSource => exact fun _ => minds_updateSource h
  | bind => exact fun _ => minds_bind h
  | unbind => exact .bind fun _ _ => .some (tends_unbind _).done
  | nextVersion =>
    refine .bind_pair fun i r hr => .some ?_
    have hround : Tends [] [] ([] ++ []) s { s with records := s.records.insert i r.nextRound } :=
      tends_records (.insert (get?_of_record? hr) (fun _ => .inl) fun _ => .inl)
    exact hround.done
  | record => exact fun _ => minds_record
  | clearStale =>
    exact .bind fun _ hr => .some (tends_giveUpEntries (get?_of_record? hr) (fun _ => mem_of_mem_fresh) fun _ =>
      mem_fresh_or_stale).done
  | clearRecord =>
    exact .bind fun _ hr => .some (tends_giveUpEntries (get?_of_record? hr) (fun _ he => absurd he List.not_mem_nil)
      fun _ => .inr).done

theorem minds_execute (h : Sound (· ∈ s.held) s) (d : Command) : Minds s (s.execute d).session (s.execute d).tasks := by
  unfold execute
  cases ha : s.answer? d with
  | none => exact minds_refl
  | some a => exact minds_answer h d a ha

/-! ### Acts -/

/-- Telling a listener of a change upholds the session. -/
theorem minds_tell (h : Sound (· ∈ s.held) s) (new previous : Value) (l : Listener) :
    Minds s (s.tell new previous l).session (s.tell new previous l).tasks := by
  cases l with
  | binding b =>
    have hkeepless : Keepless (s.refresh b).tasks := by
      cases hx : s.bindings.get? b with
      | none => simp [refresh, hx]
      | some x =>
        cases hy : x.state with
        | none => simp [refresh, hx, hy]
        | some y =>
          rw [refresh_eq hx hy]
          cases (s.readAgain b x y).2 with
          | ok v => exact keepless_write _ _ _ _
          | error e => exact keepless_nil
    exact (yields_refresh h b).minds (hkeepless.andThen b)
  | recorder i =>
    simp only [tell]
    split
    · exact minds_refl
    next x _ =>
      have hnote : Undisturbed s (s.note (.change x.label (s.view new) (s.view previous))) := undisturbed_note rfl
      split
      · exact hnote.tends.done
      · refine (hnote.tends.before (Undisturbed.tends {})).minds ?_
        simp [Id.ref]

theorem undisturbed_noteEvent (s : Session) (label : String) (e : StreamEvent) :
    Undisturbed s (s.noteEvent label e) := by
  cases e <;> exact undisturbed_note rfl

/-- Delivering an event to a sink upholds the session. -/
theorem minds_receive (s : Session) (e : StreamEvent) (k : Sink) :
    Minds s (s.receive e k).session (s.receive e k).tasks := by
  cases k with
  | observer o =>
    simp only [receive]
    split
    · exact minds_refl
    next x hx =>
      have htold : Undisturbed s { s with store := s.store.setObserver o (x.receive e).1 } :=
        undisturbed_setObserver hx (Observer.isDestroyed_receive ..) (Observer.subscription_receive ..)
      split
      · exact htold.tends.done
      next new previous _ =>
        have hnotify :=
          undisturbed_notify { s with store := s.store.setObserver o (x.receive e).1 } (.observer o) new previous
        refine ⟨(htold.tends.before hnotify.tends).upholds, fun {p} hp => ?_⟩
        have hop : p = o := by
          have hp : (.keep p.ref : Task) ∈ [.keep o.ref] := by simpa [Reaction.andThen, Session.notify] using hp
          have href : p.ref = o.ref := Task.keep.inj (List.mem_singleton.1 hp)
          exact congrArg (fun r : Ref => (⟨r.number⟩ : ObserverId)) href
        simp only [Reaction.andThen]
        rw [hnotify.present, htold.present, hop, hx, Option.isSome_some]
  | handler k =>
    simp only [receive]
    split
    · exact minds_refl
    next x hx =>
      have hnote := undisturbed_noteEvent s x.label e
      have hsame : (s.noteEvent x.label e).handlers = s.handlers := by cases e <;> rfl
      split
      · exact hnote.tends.done
      · have hthere : (s.noteEvent x.label e).handlers.get? k = some x := by rw [hsame, hx]
        have hlimit := undisturbed_setHandler (z := { x with limit := x.limit - 1 }) hthere rfl
        exact (hnote.tends.before hlimit.tends).minds (by simp)

/-- A task that is taken from the top is put back in part. -/
theorem tends_take {t : Task} {rest : List Task} (hp : s.pending = t :: rest) {ts : List Task}
    (ht : Keepless [t]) (hts : Keepless ts) :
    Tends [] [] [] s { s with pending := ts ++ rest } := by
  have htake : Tends [] [] ([] ++ []) s { s with pending := ts ++ rest } := by
    refine tends_pending (fun o ho => .inl ?_) fun o ho => .inl ?_
    · rw [hp]
      exact List.mem_cons_of_mem _ ((List.mem_append.1 ho).resolve_left (hts o))
    · rw [hp] at ho
      exact List.mem_append_right _ ((List.mem_cons.1 ho).resolve_left fun he => ht o (he ▸ List.mem_cons_self))
  exact htake

/-- Each task upholds the session. -/
theorem upholds_step (h : Sound (· ∈ s.held) s) : Upholds s s.step := by
  unfold step
  split
  · exact Tends.refl.upholds
  next t rest hp =>
    have htake : ∀ ts : List Task, Keepless [t] → Keepless ts → Tends [] [] [] s { s with pending := ts ++ rest } :=
      fun ts ht hts => tends_take hp ht hts
    cases t with
    | notify w new previous ls =>
      cases ls with
      | nil => exact (htake [] (by simp) keepless_nil).upholds
      | cons l ls =>
        have hleft := htake [.notify w new previous ls] (by simp) (by simp)
        have hsound : Sound (· ∈ ({ s with pending := .notify w new previous ls :: rest } : Session).held) _ :=
          h.take hp [.notify w new previous ls] (by simp [sharedInTask])
        simp only [doTask]
        split
        · exact hleft.and_upholds (minds_tell hsound new previous l).push
        · exact hleft.upholds
    | deliver i e ks =>
      cases ks with
      | nil => exact (htake [] (by simp) keepless_nil).upholds
      | cons k ks =>
        have hleft := htake [.deliver i e ks] (by simp) (by simp)
        exact hleft.and_upholds (minds_receive _ e k).push
    | perform label ds =>
      cases ds with
      | nil => exact (htake [] (by simp) keepless_nil).upholds
      | cons d ds =>
        have hleft := htake [.perform label ds] (by simp) (by simp)
        have hsound : Sound (· ∈ ({ s with pending := .perform label ds :: rest } : Session).held) _ :=
          h.take hp [.perform label ds] (by simp [sharedInTask])
        have hminds := minds_execute hsound d
        refine hleft.and_upholds (Minds.push ⟨hminds.upholds, fun {o} ho => ?_⟩)
        rcases List.mem_append.1 ho with ho | ho
        · exact hminds.there ho
        · simp at ho
    | report label reply =>
      have hnote : Undisturbed { s with pending := rest }
          (({ s with pending := rest } : Session).note (.action label reply)) := undisturbed_note rfl
      exact ((htake [] (by simp) keepless_nil).before hnote.tends).upholds
    | keep r =>
      have hdrop : Tends [] [] (straysOf r ++ []) s { s with pending := rest } := by
        refine tends_pending (fun o ho => .inl (hp ▸ List.mem_cons_of_mem _ ho)) fun o ho => ?_
        rw [hp] at ho
        rcases List.mem_cons.1 ho with ho | ho
        · exact .inr (mem_straysOf.2 (Task.keep.inj ho).symm)
        · exact .inl ho
      exact (hdrop.before (tends_letGo r)).upholds
    | adopt name k =>
      exact ((htake [] (by simp) keepless_nil).before (tends_setNameOf name (by decide))).upholds

/-- Each act upholds the session. -/
theorem upholds_act (h : Sound (· ∈ s.held) s) (a : Act) : Upholds s (s.act a) := by
  cases a with
  | command d => exact (minds_execute h d).push
  | step => exact upholds_step h

end Session

end DataBinding
