import DataBinding.Proofs.Heeds

/-!
# Nothing escapes a binding in a run

No command and no task that does not evaluate a binding keeps from it what changes (`InOrder.heeds_execute`,
`InOrder.heeds_act`), and what the binding was going to be told of before, it is still going to be told of
(`exists_awaits_act`).
-/

namespace DataBinding

namespace Session

variable {s s' : Session} {b c : BindingId} {x : Binding} {a : Answer} {rest : List Task}

abbrev AnswerHeeds (c : BindingId) (s : Session) (a : Answer) : Prop :=
  Heeds c s { session := a.session, tasks := a.tasks }

/-! ### Making things -/

theorem InOrder.heeds_makeObject (h : InOrder true s) (c : BindingId) {name : String}
    {properties : List (String × HostValue)} (ha : s.answerMakeObject name properties = some a) : AnswerHeeds c s a := by
  simp only [answerMakeObject] at ha
  obtain ⟨⟨t, ps⟩, hps, ha⟩ := Option.bind_eq_some_iff.1 ha
  obtain rfl := Option.some.inj ha
  obtain ⟨g', hm, hw⟩ := made_propertiesOf? (g := s.bare) properties h.sound hps
  have hmade := hm.trans (.newObject _ hw)
  exact heeds_setName (h.making hmade) (.making hmade h.sound) ..

theorem heeds_newStream (h : Leaves (fun _ => False) s s' c) (hs : Balanced true s') (x : Stream) (name : String) :
    AnswerHeeds c s
      { session := { s' with store := (s'.store.newStream x).1 }.setName name (s'.store.newStream x).2.ref } := by
  have hmade : Balanced true { s' with store := (s'.store.newStream x).1 } :=
    hs.aside (Nat.le_succ _) rfl rfl rfl rfl rfl rfl
  exact heeds_setName hmade (h.trans (.of_store rfl rfl rfl rfl)) ..

theorem InOrder.heeds_makeSubject (h : InOrder true s) (c : BindingId) {name : String} {initial : Option HostValue}
    (ha : s.answerMakeSubject name initial = some a) : AnswerHeeds c s a := by
  simp only [answerMakeSubject] at ha
  obtain ⟨⟨t, x⟩, hx, ha⟩ := Option.bind_eq_some_iff.1 ha
  obtain rfl := Option.some.inj ha
  cases initial with
  | none =>
    obtain ⟨rfl, rfl⟩ := Prod.mk.inj (Option.some.inj hx)
    exact heeds_newStream .refl h.balanced ..
  | some v =>
    obtain ⟨⟨t', w⟩, hw, hx⟩ := Option.map_eq_some_iff.1 hx
    obtain ⟨rfl, rfl⟩ := Prod.mk.inj hx
    obtain ⟨g', hm, -⟩ := made_valueOf? (g := s.bare) v h.sound hw
    exact heeds_newStream (.making hm h.sound) (h.making hm) ..

theorem InOrder.heeds_makeCold (h : InOrder true s) (c : BindingId) {name : String} {events : List HostEvent}
    (ha : s.answerMakeCold name events = some a) : AnswerHeeds c s a := by
  simp only [answerMakeCold] at ha
  obtain ⟨⟨t, es⟩, hes, ha⟩ := Option.bind_eq_some_iff.1 ha
  obtain rfl := Option.some.inj ha
  obtain ⟨g', hm, -⟩ := made_eventsOf? (g := s.bare) events h.sound hes
  exact heeds_newStream (.making hm h.sound) (h.making hm) ..

theorem InOrder.heeds_makeScope (h : InOrder true s) (c : BindingId) {name context : String}
    {parent override : Option String} (ha : s.answerMakeScope name context parent override = some a) :
    AnswerHeeds c s a := by
  simp only [answerMakeScope] at ha
  obtain ⟨o, ho, ha⟩ := Option.bind_eq_some_iff.1 ha
  obtain ⟨outer, hout, ha⟩ := Option.bind_eq_some_iff.1 ha
  obtain ⟨⟨t, p⟩, hp, ha⟩ := Option.bind_eq_some_iff.1 ha
  obtain rfl := Option.some.inj ha
  obtain ⟨g', hm, -⟩ := made_override? (g := s.bare) h.sound hp
  have hmade : Leaves (fun _ => False) s t c := .making hm h.sound
  have hscoped : ∀ x : Scope, Balanced true { t.fresh.1 with scopes := t.scopes.insert ⟨t.store.fresh⟩ x } :=
    fun _ => (h.making hm).aside (Nat.le_succ _) rfl rfl rfl rfl rfl rfl
  exact heeds_setName (hscoped _) (hmade.trans (.of_store rfl rfl rfl rfl)) ..

theorem InOrder.heeds_makeSystem (h : InOrder true s) (c : BindingId) {name : String} {config : Config}
    (ha : s.answerMakeSystem name config = some a) : AnswerHeeds c s a := by
  simp only [answerMakeSystem] at ha
  split at ha
  · obtain rfl := Option.some.inj ha
    exact .of_leaves .refl
  · obtain rfl := Option.some.inj ha
    have hmade : Balanced true { s.fresh.1 with
        systems := s.systems.insert ⟨s.store.fresh⟩ (System.ofConfig config) } :=
      h.balanced.aside (Nat.le_succ _) rfl rfl rfl rfl rfl rfl
    exact heeds_setName (s := s) hmade (.of_store rfl rfl rfl rfl) ..

theorem InOrder.heeds_makeRecorder (h : InOrder true s) (c : BindingId) {name : String} {actions : List Command}
    {limit : Nat} (ha : s.answerMakeRecorder name actions limit = some a) : AnswerHeeds c s a := by
  simp only [answerMakeRecorder] at ha
  obtain rfl := Option.some.inj ha
  have hmade : Balanced true { s.fresh.1 with
      recorders := s.recorders.insert ⟨s.store.fresh⟩ { label := name, actions, limit } } :=
    h.balanced.aside (Nat.le_succ _) rfl rfl rfl rfl rfl rfl
  exact heeds_setName (s := s) hmade (.of_store rfl rfl rfl rfl) ..

/-- A new binding is not bound. -/
theorem Balanced.heeds_addBinding (h : Balanced true s) (c : BindingId) (name : String) {x : Binding}
    (hstate : x.state = none) (hentries : x.observations.entries = []) : AnswerHeeds c s (s.addBinding name x) := by
  have hadded := h.newBinding hentries
  have hget : ({ s.fresh.1 with bindings := s.bindings.insert ⟨s.store.fresh⟩ x } : Session).bindings.get? c =
      if ⟨s.store.fresh⟩ = c then some x else s.bindings.get? c := Table.get?_insert ..
  by_cases hc : ⟨s.store.fresh⟩ = c
  · rw [if_pos hc] at hget
    refine .inl fun z hz => ?_
    have hspared : Spared (fun _ => False) { s.fresh.1 with bindings := s.bindings.insert ⟨s.store.fresh⟩ x }
        (s.addBinding name x).session c := hadded.spared_setName name ⟨.binding, s.store.fresh⟩ c
    rcases hspared with hleaves | hnone
    · obtain ⟨w, hw, hout⟩ := hleaves.get? hget
      obtain rfl := Option.some.inj (hw.symm.trans hz)
      have hsame : w.outline.state = x.outline.state := congrArg Binding.state hout
      have hnone : w.state = none := hsame.trans hstate
      simp [Binding.isBound, hnone]
    · rw [hnone] at hz
      cases hz
  · rw [if_neg hc] at hget
    have hleaves : Leaves (fun _ => False) s { s.fresh.1 with bindings := s.bindings.insert ⟨s.store.fresh⟩ x } c :=
      .of_store (by rw [hget]) rfl rfl rfl
    exact heeds_setName hadded hleaves name ⟨.binding, s.store.fresh⟩

theorem InOrder.heeds_makeAnswer (h : InOrder true s) (c : BindingId) {name system target : String}
    (ha : MakeAnswer s name system target a) : AnswerHeeds c s a := by
  cases ha with
  | refused => exact .of_leaves .refl
  | made _ _ hx => exact h.balanced.heeds_addBinding c name hx.state (by rw [hx.observations])

theorem InOrder.heeds_drop (h : InOrder true s) (c : BindingId) {what : Thing} {name : String}
    (ha : s.answerDrop what name = some a) : AnswerHeeds c s a := by
  simp only [answerDrop] at ha
  split at ha
  · obtain rfl := Option.some.inj ha
    exact .of_leaves .refl
  · obtain rfl := Option.some.inj ha
    have herased : Balanced true { s with names := s.names.erase ⟨what, name⟩ } :=
      h.balanced.aside (Nat.le_refl _) rfl rfl rfl rfl rfl rfl
    have hleaves : Leaves (fun _ => False) s { s with names := s.names.erase ⟨what, name⟩ } c := .of_store rfl rfl rfl rfl
    exact .after hleaves (.of_spared (herased.spared_letGo _ c))

/-! ### Writing and emitting -/

theorem InOrder.heeds_set (h : InOrder true s) {object name : String} {value : HostValue}
    (ha : s.answerSet object name value = some a) (he : Exact c s a.session) : AnswerHeeds c s a := by
  simp only [answerSet] at ha
  obtain ⟨o, ho, ha⟩ := Option.bind_eq_some_iff.1 ha
  obtain ⟨⟨t, v⟩, hv, ha⟩ := Option.bind_eq_some_iff.1 ha
  obtain rfl := Option.some.inj ha
  obtain ⟨g', hm, -⟩ := made_valueOf? (g := s.bare) value h.sound hv
  exact heeds_write (.making hm h.sound) (h.balanced.listed c) he

theorem InOrder.heeds_collection (h : InOrder true s) (c : BindingId) {collection : String} {new previous : HostValue}
    (ha : s.answerNotify collection new previous = some a) : AnswerHeeds c s a := by
  simp only [answerNotify] at ha
  obtain ⟨d, hd, ha⟩ := Option.bind_eq_some_iff.1 ha
  obtain ⟨⟨t, v⟩, hv, ha⟩ := Option.bind_eq_some_iff.1 ha
  obtain ⟨⟨t', w⟩, hw, ha⟩ := Option.bind_eq_some_iff.1 ha
  obtain rfl := Option.some.inj ha
  obtain ⟨g', hm, -⟩ := made_valueOf? (g := s.bare) new h.sound hv
  obtain ⟨g'', hm', -⟩ := made_valueOf? previous (h.sound.making hm) hw
  exact .after (.making (hm.trans hm') h.sound) (heeds_notify ..)

theorem leaves_emit (s : Session) (i : StreamId) (v : Value) (c : BindingId) :
    Leaves (fun _ => False) s (s.emit i v).session c := by
  unfold emit
  split
  · exact .of_store rfl rfl rfl rfl
  · exact .refl

theorem leaves_terminate (s : Session) (i : StreamId) (e : StreamEvent) (c : BindingId) :
    Leaves (fun _ => False) s (s.terminate i e).session c := by
  unfold terminate
  split
  · exact .of_store rfl rfl rfl rfl
  · exact .refl

theorem InOrder.heeds_next (h : InOrder true s) (c : BindingId) {stream : String} {value : HostValue}
    (ha : s.answerNext stream value = some a) : AnswerHeeds c s a := by
  simp only [answerNext] at ha
  obtain ⟨i, hi, ha⟩ := Option.bind_eq_some_iff.1 ha
  obtain ⟨⟨t, v⟩, hv, ha⟩ := Option.bind_eq_some_iff.1 ha
  obtain rfl := Option.some.inj ha
  obtain ⟨g', hm, -⟩ := made_valueOf? (g := s.bare) value h.sound hv
  have hmade : Leaves (fun _ => False) s t c := .making hm h.sound
  exact .of_leaves (hmade.trans (leaves_emit ..))

theorem heeds_subscribe (c : BindingId) {name stream : String} {actions : List Command} {limit : Nat}
    (ha : s.answerSubscribe name stream actions limit = some a) : AnswerHeeds c s a := by
  simp only [answerSubscribe] at ha
  obtain ⟨i, hi, ha⟩ := Option.bind_eq_some_iff.1 ha
  obtain rfl := Option.some.inj ha
  refine .of_leaves (.of_store rfl ?_ ?_ ?_)
  all_goals
    rw [Store.subscribe_eq]
    rfl

theorem heeds_unsubscribe (c : BindingId) {sink : String} (ha : s.answerUnsubscribe sink = some a) :
    AnswerHeeds c s a := by
  simp only [answerUnsubscribe] at ha
  obtain ⟨k, hk, ha⟩ := Option.bind_eq_some_iff.1 ha
  obtain ⟨x, hx, ha⟩ := Option.bind_eq_some_iff.1 ha
  obtain rfl := Option.some.inj ha
  have hclosed : Leaves (fun _ => False) s { s with handlers := s.handlers.insert k { x with subscription := .closed } } c :=
    .of_store rfl rfl rfl rfl
  exact .of_leaves (hclosed.trans (.close _))

/-! ### Assigning -/

/-- On the way to a place, objects may be made that the binding does not observe. -/
theorem heeds_assign (h : Leaves (fun _ => False) s s' c) (hl : s.Listed c) (ht : s'.store.Tidy) {i : SystemId}
    {flags : EvalFlags} {scope : Scope} {host : Option Scope} {e : Expr} {v : Value} {q : Reaction}
    (hq : s'.assign i flags scope host e v = .ok q) (he : Exact c s q.session) : Heeds c s q := by
  obtain ⟨z, t, d, -, hmakes, rfl⟩ := exists_makes_of_assign hq
  have hmade : Leaves (fun _ => False) s' (s'.withEval i z t) c := by
    refine .of_sources rfl (fun p hp => hmakes.objects (ht.objects hp)) hmakes.collections fun _ _ o _ _ _ _ => ?_
    simp only [withEval, hmakes.observers]
  exact heeds_write (h.trans hmade) hl he

theorem InOrder.heeds_assign (h : InOrder true s) {expression : HostExpr} {place : Place} {value : HostValue}
    (ha : s.answerAssign expression place value = some a) (he : Exact c s a.session) : AnswerHeeds c s a := by
  cases answer_assign ha with
  | refused => exact .of_leaves .refl
  | accepted _ _ hv hq =>
    obtain ⟨g', hm, -⟩ := made_valueOf? (g := s.bare) value h.sound hv
    exact Session.heeds_assign (.making hm h.sound) (h.balanced.listed c) (spares_making hm h.tidy).1 hq he
  | failed hv =>
    obtain ⟨g', hm, -⟩ := made_valueOf? (g := s.bare) value h.sound hv
    exact .of_leaves (.making hm h.sound)

theorem InOrder.heeds_updateSource (h : InOrder true s) {binding : String} {value : HostValue}
    (ha : s.answerUpdateSource binding value = some a) (he : Exact c s a.session) : AnswerHeeds c s a := by
  cases answer_updateSource ha with
  | accepted _ hv hq =>
    obtain ⟨g', hm, -⟩ := made_valueOf? (g := s.bare) value h.sound hv
    obtain ⟨y, -, hassign⟩ := exists_assign_of_updateSource hq
    exact (Session.heeds_assign (.making hm h.sound) (h.balanced.listed c) (spares_making hm h.tidy).1 hassign he).andThen _
  | failed hv =>
    obtain ⟨g', hm, -⟩ := made_valueOf? (g := s.bare) value h.sound hv
    exact .of_leaves (.making hm h.sound)

/-! ### Binding and unbinding -/

/-- A command that does not evaluate the binding binds another one, or one that is bound already. -/
theorem InOrder.heeds_answerBind (h : InOrder true s) {binding scope : String} {host : Option String}
    (ha : s.answerBind binding scope host = some a) (hnot : ∀ r, s.bound? (.bind binding scope host) ≠ some (c, r))
    (he : Exact c s a.session) : AnswerHeeds c s a := by
  have hheeds : ∀ {b x k k'}, s.binding? binding = some (b, x) → s.scope? scope = some k → s.host? host = some k' →
      Exact c s (s.bind b x { scope := k, host := k' }).1.session →
        Heeds c s (s.bind b x { scope := k, host := k' }).1 := by
    intro b x k k' hb hk hk' he
    cases hnew : x.state.any fun z => z.scope.id = k.id with
    | true =>
      rw [bind_of_bound hnew]
      exact .of_leaves .refl
    | false =>
      -- a binding that is bound anew is evaluated, and so it is another one
      have hbc : b ≠ c := by
        rintro rfl
        refine hnot ((s.boundTo b { scope := k, host := k' }).readAgain b x { scope := k, host := k' }).2 ?_
        simp only [bound?, hb, hk, hk', Option.bind_eq_bind, Option.bind_some, hnew]
        rfl
      exact h.heeds_bind hbc (get?_of_binding? hb) (h.sound.outside.scope hk) (h.sound.outside.host hk') he
  cases answer_bind ha with
  | bound hb hscope hhost hr =>
    have hr' := hheeds hb hscope hhost
    rw [hr] at hr'
    exact (hr' he).andThen _
  | failed hb hscope hhost hr =>
    have hr' := hheeds hb hscope hhost
    rw [hr] at hr'
    exact hr' he

theorem InOrder.heeds_unbind (h : InOrder true s) (b c : BindingId) : Heeds c s { session := s.unbind b } := by
  by_cases hbc : b = c
  · subst hbc
    refine .inl fun x hx => ?_
    obtain ⟨z, hz⟩ := Option.isSome_iff_exists.1 ((elsewhere_unbind s b).present (by rw [hx]; rfl))
    obtain ⟨w, hw, -, hnone, -⟩ := h.balanced.exists_unbind hz
    obtain rfl := Option.some.inj (hx.symm.trans hw)
    simp [Binding.isBound, hnone]
  · exact .of_leaves (.unbind (h.balanced.listed b) (h.balanced.listed c) hbc)

/-! ### Commands -/

/-- A command that does not evaluate the binding keeps nothing from it. -/
theorem InOrder.heeds_answer (h : InOrder true s) {d : Command} (hd : d.defers true = true)
    (hnot : ∀ r, s.bound? d ≠ some (c, r)) (ha : s.answer? d = some a) (he : Exact c s a.session) : AnswerHeeds c s a := by
  have looks : ∀ {reply : Reply}, some ({ session := s, reply } : Answer) = some a → AnswerHeeds c s a := by
    rintro reply hr
    obtain rfl := Option.some.inj hr
    exact .of_leaves .refl
  cases d with
  | makeObject => exact h.heeds_makeObject c ha
  | makeSubject => exact h.heeds_makeSubject c ha
  | makeCold => exact h.heeds_makeCold c ha
  | makeScope => exact h.heeds_makeScope c ha
  | makeSystem => exact h.heeds_makeSystem c ha
  | makeRecorder => exact h.heeds_makeRecorder c ha
  | makeFromAttribute => exact h.heeds_makeAnswer c (answer_makeFromAttribute ha)
  | makeBinding => exact h.heeds_makeAnswer c (answer_makeBinding ha)
  | makeCollection | makeRecord | listen | unlisten | record => cases hd
  | observe | shutdown | destroy | evaluate => cases hd
  | addConverter | prune =>
    obtain ⟨⟨i, y⟩, hy, ha⟩ := Option.bind_eq_some_iff.1 ha
    obtain rfl := Option.some.inj ha
    exact .of_leaves (.of_store rfl rfl rfl rfl)
  | drop => exact h.heeds_drop c ha
  | get | has | keys =>
    obtain ⟨o, ho, ha⟩ := Option.bind_eq_some_iff.1 ha
    exact looks ha
  | set => exact h.heeds_set ha he
  | same | peek | resolve =>
    obtain ⟨x, hx, ha⟩ := Option.bind_eq_some_iff.1 ha
    obtain ⟨y, hy, ha⟩ := Option.bind_eq_some_iff.1 ha
    exact looks ha
  | notify => exact h.heeds_collection c ha
  | next => exact h.heeds_next c ha
  | fail | complete =>
    obtain ⟨i, hi, ha⟩ := Option.bind_eq_some_iff.1 ha
    obtain rfl := Option.some.inj ha
    exact .of_leaves (leaves_terminate ..)
  | subscribe => exact heeds_subscribe c ha
  | unsubscribe => exact heeds_unsubscribe c ha
  | setValue =>
    obtain ⟨o, ho, ha⟩ := Option.bind_eq_some_iff.1 ha
    exact looks ha
  | assign => exact h.heeds_assign ha he
  | bind => exact h.heeds_answerBind ha hnot he
  | unbind =>
    obtain ⟨⟨b, x⟩, hb, ha⟩ := Option.bind_eq_some_iff.1 ha
    obtain rfl := Option.some.inj ha
    exact h.heeds_unbind b c
  | updateSource => exact h.heeds_updateSource ha he
  | nextVersion | clearStale | clearRecord =>
    obtain ⟨⟨i, r⟩, hr, ha⟩ := Option.bind_eq_some_iff.1 ha
    rw [h.balanced.record?] at hr
    cases hr
  | describe =>
    obtain ⟨t, ht, ha⟩ := Option.bind_eq_some_iff.1 ha
    exact looks ha

theorem InOrder.heeds_execute (h : InOrder true s) {d : Command} (hd : d.defers true = true)
    (hnot : ∀ r, s.bound? d ≠ some (c, r)) (he : Exact c s (s.execute d).session) : AnswerHeeds c s (s.execute d) := by
  unfold Session.execute at he ⊢
  cases ha : s.answer? d with
  | none => exact .of_leaves .refl
  | some a =>
    rw [ha] at he
    exact h.heeds_answer hd hnot ha he

/-! ### Tasks -/

@[simp] theorem evaluation?_command (s : Session) (d : Command) : s.evaluation? (.command d) = s.bound? d := rfl

theorem evaluation?_notify {w : Source} {new previous : Value} {ls : List Listener}
    (hp : s.pending = .notify w new previous (.binding b :: ls) :: rest) : s.evaluation? .step =
      (({ s with pending := .notify w new previous ls :: rest } : Session).refreshed? b).map (b, ·) := by
  simp only [evaluation?, hp]

theorem evaluation?_perform {label : String} {d : Command} {ds : List Command}
    (hp : s.pending = .perform label (d :: ds) :: rest) :
    s.evaluation? .step = ({ s with pending := .perform label ds :: rest } : Session).bound? d := by
  simp [evaluation?, carriedOut?, hp]

/-- A binding that is not bound does nothing when it is told of a change. -/
theorem refresh_of_none (h : s.refreshed? b = none) : s.refresh b = { session := s } := by
  unfold refresh
  split
  · rfl
  next x hx =>
    split
    · rfl
    next y hy => simp [refreshed?, hx, hy] at h

theorem Heeds.push {r : Reaction} (h : Heeds c s r) :
    Heeds c s { session := r.session.push r.tasks, tasks := (r.session.push r.tasks).pending } := by
  refine h.imp_right fun ⟨W, hleaves, hawaits⟩ => ⟨W, hleaves.trans (.of_store rfl rfl rfl rfl), fun x e hx he hw => ?_⟩
  obtain ⟨t, ht, htc⟩ := hawaits x e hx he hw
  exact ⟨t, List.mem_append_left _ ht, htc⟩

/-- A task is taken up, and a part of it is put back. -/
theorem Heeds.take {ts : List Task} {r : Reaction} (h : Heeds c { s with pending := ts } r) : Heeds c s r := by
  have htaken : Leaves (fun _ => False) s { s with pending := ts } c := .of_store rfl rfl rfl rfl
  exact .after htaken h

theorem InOrder.heeds_doTask (h : InOrder true s) {t : Task} (hp : s.pending = t :: rest)
    (hnot : ∀ r, s.evaluation? .step ≠ some (c, r)) (he : Exact c s (({ s with pending := rest } : Session).doTask t)) :
    Heeds c s
      { session := ({ s with pending := rest } : Session).doTask t
        tasks := (({ s with pending := rest } : Session).doTask t).pending } := by
  have hrest : InOrder true { s with pending := rest } := h.take hp [] fun _ ht => by cases ht
  have ht : t.Defers true := h.pending (by simp [hp])
  cases t with
  | notify w new previous ls =>
    cases ls with
    | nil => exact .take (.of_leaves .refl)
    | cons l ls =>
      obtain ⟨b, rfl⟩ := ht l (List.mem_cons_self ..)
      have hmore : InOrder true { s with pending := [.notify w new previous ls] ++ rest } := h.left hp
      rw [evaluation?_notify hp] at hnot
      simp only [Session.doTask] at he ⊢
      split at he
      next hpresent =>
        rw [if_pos hpresent]
        have htold : Heeds c { s with pending := [.notify w new previous ls] ++ rest }
            (({ s with pending := [.notify w new previous ls] ++ rest } : Session).refresh b) := by
          -- were it the binding itself, it would be evaluated, unless it is not bound
          by_cases hbc : b = c
          · subst hbc
            have hnone : ({ s with pending := [.notify w new previous ls] ++ rest } : Session).refreshed? b = none := by
              refine Option.eq_none_iff_forall_ne_some.2 fun r hr => hnot r ?_
              exact congrArg (Option.map (b, ·)) hr
            rw [refresh_of_none hnone]
            exact .of_leaves .refl
          · exact hmore.heeds_refresh hbc he
        exact .push (.take (htold.andThen [.keep b.ref]))
      next hpresent =>
        rw [if_neg hpresent]
        exact .of_leaves (.of_store rfl rfl rfl rfl)
  | deliver i e ks =>
    cases ks with
    | nil => exact .take (.of_leaves .refl)
    | cons k ks =>
      have hmore : InOrder true { s with pending := [.deliver i e ks] ++ rest } := h.left hp
      exact .push (.take (hmore.heeds_receive e k c))
  | perform label ds =>
    cases ds with
    | nil => exact .take (.of_leaves .refl)
    | cons d ds =>
      have hmore : InOrder true { s with pending := [.perform label ds] ++ rest } := h.left hp
      rw [evaluation?_perform hp] at hnot
      exact .push (.take (.andThen (hmore.heeds_execute (ht d (List.mem_cons_self ..)) hnot he) _))
  | report label reply => exact .of_leaves (.of_store rfl rfl rfl rfl)
  | keep r => exact .take (.of_spared (hrest.balanced.spared_letGo r c))
  | adopt name k => exact .take (.of_spared (hrest.balanced.spared_setName name k.ref c))

/-- An act that does not evaluate the binding keeps nothing from it. -/
theorem InOrder.heeds_act (h : InOrder true s) {a : Act} (ha : a.defers true = true)
    (hnot : ∀ r, s.evaluation? a ≠ some (c, r)) (he : Exact c s (s.act a)) :
    Heeds c s { session := s.act a, tasks := (s.act a).pending } := by
  cases a with
  | command d => exact .push (h.heeds_execute ha hnot he)
  | step =>
    cases hp : s.pending with
    | nil =>
      have hsame : s.step = s := by simp only [step, hp]
      simp only [Session.act, hsame]
      exact .of_leaves .refl
    | cons t rest =>
      have hstep : s.step = ({ s with pending := rest } : Session).doTask t := by simp only [step, hp]
      simp only [Session.act, hstep] at he ⊢
      exact h.heeds_doTask hp hnot he

/-! ### What the binding is still to be told of -/

/-- What a binding is still to be told of, it is still to be told of after an act, unless that tells the binding. -/
theorem exists_awaits_of_not_next (h : Sound (· ∈ s.held) s) {a : Act}
    (hnot : ∀ w new previous ls rest, a = .step → s.pending ≠ .notify w new previous (.binding c :: ls) :: rest)
    (hw : ∃ t ∈ s.pending, t.Awaits c) : ∃ t ∈ (s.act a).pending, t.Awaits c := by
  obtain ⟨t, ht, htc⟩ := hw
  cases a with
  | command d =>
    refine ⟨t, List.mem_append_right _ ?_, htc⟩
    rwa [pending_execute h d]
  | step =>
    cases hp : s.pending with
    | nil =>
      rw [hp] at ht
      cases ht
    | cons t' rest =>
      have hstep : s.step = ({ s with pending := rest } : Session).doTask t' := by simp only [step, hp]
      simp only [Session.act, hstep, pending_doTask h hp]
      rw [hp] at ht
      rcases List.mem_cons.1 ht with rfl | ht
      · cases t with
        | notify w new previous ls =>
          cases ls with
          | nil => cases htc
          | cons l ls =>
            have hl : l ≠ .binding c := by
              rintro rfl
              exact hnot w new previous ls rest rfl hp
            have hmem : .binding c ∈ ls := (List.mem_cons.1 htc).resolve_left fun he => hl he.symm
            exact ⟨.notify w new previous ls, by simp [Task.left], hmem⟩
        | deliver | perform | report | keep | adopt => cases htc
      · exact ⟨t, by simp [ht], htc⟩

/-- A bound binding is told by being evaluated. -/
theorem exists_awaits_act (h : Sound (· ∈ s.held) s) {a : Act} (hnot : ∀ r, s.evaluation? a ≠ some (c, r))
    (hx : s.bindings.get? c = some x) (hbound : x.isBound = true) (hw : ∃ t ∈ s.pending, t.Awaits c) :
    ∃ t ∈ (s.act a).pending, t.Awaits c := by
  refine exists_awaits_of_not_next h ?_ hw
  rintro w new previous ls rest rfl hp
  obtain ⟨y, hy⟩ := Option.isSome_iff_exists.1 hbound
  refine hnot (({ s with pending := .notify w new previous ls :: rest } : Session).readAgain c x y).2 ?_
  rw [evaluation?_notify hp]
  simp [refreshed?, hx, hy]

end Session

end DataBinding
