import DataBinding.Proofs.Assignment
import DataBinding.Proofs.Balance
import DataBinding.Proofs.Runs

/-!
# Commands and tasks keep the balance

Whatever the host does that leaves it to bindings to listen, registrations and records balance after each command and
after each task (`InOrder.act`), and so they do at every point of a run (`InOrder.play`).
-/

namespace DataBinding

/-- The act leaves to bindings what its command leaves to them. -/
def Act.defers (alone : Bool) : Act → Bool
  | .command c => c.defers alone
  | .step => true

namespace Session

variable {alone : Bool} {g g' : Ghost} {s t : Session} {P : Prop}

/-! ### Making things -/

/-- Nobody has begun to listen to what was made. -/
theorem still_spares {st : Store} (hs : s.store.Spares st) (hl : P → ∀ o, st.isLive o = s.store.isLive o) :
    Still P s { s with store := st } where
  toApart := ⟨rfl, fun _ => rfl, hs.fresh⟩
  dues _ := rfl
  entries z := by rw [hs.listeners]
  live := hl

theorem spares_making (hm : Moves Making (g, s) (g', t)) (h : s.store.Tidy) : t.store.Tidy ∧ s.store.Spares t.store := by
  suffices hgen : ∀ a b : Ghost × Session, Moves Making a b → a.2.store.Tidy →
      b.2.store.Tidy ∧ a.2.store.Spares b.2.store from hgen _ _ hm h
  intro a b hm h
  induction hm with
  | refl => exact ⟨h, .refl⟩
  | tail _ hlast ih =>
    obtain ⟨e, rfl, hlast⟩ := hlast
    obtain ⟨htidy, hspares⟩ := ih
    cases hlast with
    | newObject =>
      obtain ⟨htidy', hspares'⟩ := htidy.newObject _
      exact ⟨htidy', hspares.trans hspares'⟩

theorem Balanced.making (h : Balanced alone s) (hm : Moves Making (g, s) (g', t)) (ht : s.store.Tidy) :
    Balanced alone t := by
  have hspares := (spares_making hm ht).2
  obtain ⟨objects, fresh, rfl, -⟩ := making_eq hm
  exact h.still (still_spares hspares fun _ _ => rfl)

/-- A part of the session that is not about bindings, listeners and observers. -/
theorem Balanced.aside (h : Balanced alone s) (hf : s.store.fresh ≤ t.store.fresh) (hr : t.records = s.records)
    (hh : t.handlers = s.handlers) (hb : t.bindings = s.bindings) (ho : t.store.objects = s.store.objects)
    (hv : t.store.observers = s.store.observers) (hc : t.store.collections = s.store.collections) : Balanced alone t :=
  h.still (.of_store ⟨hr, fun _ => by rw [hh], hf⟩ hb ho hv hc)

/-- A new binding has not observed anything yet. -/
theorem Balanced.newBinding (h : Balanced alone s) {b : Binding} (hb : b.observations.entries = []) :
    Balanced alone { s.fresh.1 with bindings := s.bindings.insert ⟨s.store.fresh⟩ b } := by
  -- the identity is new, so no registration is in its name
  have hfree : s.bindings.get? ⟨s.store.fresh⟩ = none := by
    cases hx : s.bindings.get? ⟨s.store.fresh⟩ with
    | none => rfl
    | some x =>
      have hlt := h.old (c := ⟨s.store.fresh⟩) (by rw [hx]; rfl)
      exact absurd hlt (Nat.lt_irrefl _)
  refine { h with owes := fun c => (h.owes c).congr (fun c z n => ?_) (fun _ => rfl) fun _ _ => rfl, idle := ?_, old := ?_ }
  · unfold Records
    simp only [Table.get?_insert]
    by_cases hc : ⟨s.store.fresh⟩ = c
    · subst hc
      simp [hfree, hb]
    · simp only [if_neg hc]
  · intro c x hx hbound
    rw [Table.get?_insert] at hx
    split at hx
    · obtain rfl := Option.some.inj hx
      exact hb
    · exact h.idle hx hbound
  · intro c hc
    rw [Table.get?_insert] at hc
    split at hc
    next he =>
      subst he
      exact Nat.lt_succ_self _
    · exact Nat.lt_succ_of_lt (h.old hc)

theorem Balanced.addBinding (h : Balanced alone s) (name : String) {b : Binding} (hb : b.observations.entries = []) :
    Balanced alone (s.addBinding name b).session :=
  (h.newBinding hb).setName ..

/-! ### Answers -/

/-- Registrations and records balance, and so they will when the work under way is done. -/
structure Tended (alone : Bool) (s : Session) : Prop where
  balanced : Balanced alone s
  pending {t : Task} : t ∈ s.pending → t.Defers alone

/-- What is true between acts. -/
structure InOrder (alone : Bool) (s : Session) : Prop extends Tended alone s where
  sound : Sound (· ∈ s.held) s
  dated : Dated s

theorem InOrder.tidy (h : InOrder alone s) : s.store.Tidy := h.sound.tidy h.dated

/-- The answer leaves a balance, and its tasks tell bindings alone. -/
abbrev AnswersInBalance (alone : Bool) (a : Answer) : Prop := Balances alone { session := a.session, tasks := a.tasks }

theorem InOrder.making (h : InOrder alone s) {g' : Ghost} (hm : Moves Making (s.bare, s) (g', t)) : Balanced alone t :=
  h.balanced.making hm h.tidy

theorem InOrder.valueOf? (h : InOrder alone s) {u : HostValue} {v : Value} (hv : s.valueOf? u = some (t, v)) :
    Balanced alone t := by
  obtain ⟨g', hm, -⟩ := made_valueOf? (g := s.bare) u h.sound hv
  exact h.making hm

theorem InOrder.makeObject (h : InOrder alone s) {name : String} {properties : List (String × HostValue)} {a : Answer}
    (ha : s.answerMakeObject name properties = some a) : AnswersInBalance alone a := by
  simp only [answerMakeObject] at ha
  obtain ⟨⟨t, ps⟩, hps, ha⟩ := Option.bind_eq_some_iff.1 ha
  obtain rfl := Option.some.inj ha
  obtain ⟨g', hm, hw⟩ := made_propertiesOf? (g := s.bare) properties h.sound hps
  exact .done ((h.making (hm.trans (.newObject _ hw))).setName ..)

theorem Balanced.newStream (h : Balanced alone s) (x : Stream) (name : String) :
    Balanced alone ({ s with store := (s.store.newStream x).1 }.setName name (s.store.newStream x).2.ref) := by
  have hmade : Balanced alone { s with store := (s.store.newStream x).1 } :=
    h.aside (Nat.le_succ _) rfl rfl rfl rfl rfl rfl
  exact hmade.setName ..

theorem InOrder.makeSubject (h : InOrder alone s) {name : String} {initial : Option HostValue} {a : Answer}
    (ha : s.answerMakeSubject name initial = some a) : AnswersInBalance alone a := by
  simp only [answerMakeSubject] at ha
  obtain ⟨⟨t, x⟩, hx, ha⟩ := Option.bind_eq_some_iff.1 ha
  obtain rfl := Option.some.inj ha
  cases initial with
  | none =>
    obtain ⟨rfl, rfl⟩ := Prod.mk.inj (Option.some.inj hx)
    exact .done (h.balanced.newStream ..)
  | some v =>
    obtain ⟨⟨t', w⟩, hw, hx⟩ := Option.map_eq_some_iff.1 hx
    obtain ⟨rfl, rfl⟩ := Prod.mk.inj hx
    exact .done ((h.valueOf? hw).newStream ..)

theorem InOrder.makeCold (h : InOrder alone s) {name : String} {events : List HostEvent} {a : Answer}
    (ha : s.answerMakeCold name events = some a) : AnswersInBalance alone a := by
  simp only [answerMakeCold] at ha
  obtain ⟨⟨t, es⟩, hes, ha⟩ := Option.bind_eq_some_iff.1 ha
  obtain rfl := Option.some.inj ha
  obtain ⟨g', hm, -⟩ := made_eventsOf? (g := s.bare) events h.sound hes
  exact .done ((h.making hm).newStream ..)

theorem InOrder.makeScope (h : InOrder alone s) {name context : String} {parent override : Option String} {a : Answer}
    (ha : s.answerMakeScope name context parent override = some a) : AnswersInBalance alone a := by
  simp only [answerMakeScope] at ha
  obtain ⟨c, hc, ha⟩ := Option.bind_eq_some_iff.1 ha
  obtain ⟨outer, hout, ha⟩ := Option.bind_eq_some_iff.1 ha
  obtain ⟨⟨t, o⟩, ho, ha⟩ := Option.bind_eq_some_iff.1 ha
  obtain rfl := Option.some.inj ha
  obtain ⟨g', hm, -⟩ := made_override? (g := s.bare) h.sound ho
  have hscoped : ∀ x : Scope, Balanced alone { t.fresh.1 with scopes := t.scopes.insert ⟨t.store.fresh⟩ x } :=
    fun _ => (h.making hm).aside (Nat.le_succ _) rfl rfl rfl rfl rfl rfl
  exact .done ((hscoped _).setName ..)

theorem InOrder.makeSystem (h : InOrder alone s) {name : String} {config : Config} {a : Answer}
    (ha : s.answerMakeSystem name config = some a) : AnswersInBalance alone a := by
  simp only [answerMakeSystem] at ha
  split at ha
  · obtain rfl := Option.some.inj ha
    exact .done h.balanced
  · obtain rfl := Option.some.inj ha
    have hmade : Balanced alone { s.fresh.1 with
        systems := s.systems.insert ⟨s.store.fresh⟩ (System.ofConfig config) } :=
      h.balanced.aside (Nat.le_succ _) rfl rfl rfl rfl rfl rfl
    exact .done (hmade.setName ..)

theorem InOrder.makeRecorder (h : InOrder alone s) {name : String} {actions : List Command} {limit : Nat} {a : Answer}
    (ha : s.answerMakeRecorder name actions limit = some a) : AnswersInBalance alone a := by
  simp only [answerMakeRecorder] at ha
  obtain rfl := Option.some.inj ha
  have hmade : Balanced alone { s.fresh.1 with
      recorders := s.recorders.insert ⟨s.store.fresh⟩ { label := name, actions, limit } } :=
    h.balanced.aside (Nat.le_succ _) rfl rfl rfl rfl rfl rfl
  exact .done (hmade.setName ..)

theorem InOrder.makeAnswer (h : InOrder alone s) {name system target : String} {a : Answer}
    (ha : MakeAnswer s name system target a) : AnswersInBalance alone a := by
  cases ha with
  | refused => exact .done h.balanced
  | made _ _ hx => exact .done (h.balanced.addBinding name (by rw [hx.observations]))

theorem InOrder.drop (h : InOrder alone s) {what : Thing} {name : String} {a : Answer}
    (ha : s.answerDrop what name = some a) : AnswersInBalance alone a := by
  simp only [answerDrop] at ha
  split at ha
  · obtain rfl := Option.some.inj ha
    exact .done h.balanced
  · obtain rfl := Option.some.inj ha
    have herased : Balanced alone { s with names := s.names.erase ⟨what, name⟩ } :=
      h.balanced.aside (Nat.le_refl _) rfl rfl rfl rfl rfl rfl
    exact .done (herased.letGo _)

/-! ### Writing and emitting -/

theorem InOrder.set (h : InOrder alone s) {object name : String} {value : HostValue} {a : Answer}
    (ha : s.answerSet object name value = some a) : AnswersInBalance alone a := by
  simp only [answerSet] at ha
  obtain ⟨o, ho, ha⟩ := Option.bind_eq_some_iff.1 ha
  obtain ⟨⟨t, v⟩, hv, ha⟩ := Option.bind_eq_some_iff.1 ha
  obtain rfl := Option.some.inj ha
  exact (h.valueOf? hv).write ..

theorem InOrder.notify (h : InOrder alone s) {collection : String} {new previous : HostValue} {a : Answer}
    (ha : s.answerNotify collection new previous = some a) : AnswersInBalance alone a := by
  simp only [answerNotify] at ha
  obtain ⟨c, hc, ha⟩ := Option.bind_eq_some_iff.1 ha
  obtain ⟨⟨t, v⟩, hv, ha⟩ := Option.bind_eq_some_iff.1 ha
  obtain ⟨⟨t', w⟩, hw, ha⟩ := Option.bind_eq_some_iff.1 ha
  obtain rfl := Option.some.inj ha
  obtain ⟨g', hm, -⟩ := made_valueOf? (g := s.bare) new h.sound hv
  obtain ⟨g'', hm', -⟩ := made_valueOf? previous (h.sound.making hm) hw
  exact (h.making (hm.trans hm')).notify ..

theorem InOrder.next (h : InOrder alone s) {stream : String} {value : HostValue} {a : Answer}
    (ha : s.answerNext stream value = some a) : AnswersInBalance alone a := by
  simp only [answerNext] at ha
  obtain ⟨i, hi, ha⟩ := Option.bind_eq_some_iff.1 ha
  obtain ⟨⟨t, v⟩, hv, ha⟩ := Option.bind_eq_some_iff.1 ha
  obtain rfl := Option.some.inj ha
  exact (h.valueOf? hv).emit ..

theorem InOrder.subscribe (h : InOrder alone s) {name stream : String} {actions : List Command} {limit : Nat} {a : Answer}
    (hactions : ∀ c ∈ actions, c.defers alone = true) (ha : s.answerSubscribe name stream actions limit = some a) :
    AnswersInBalance alone a := by
  simp only [answerSubscribe] at ha
  obtain ⟨i, hi, ha⟩ := Option.bind_eq_some_iff.1 ha
  obtain rfl := Option.some.inj ha
  have hjoined : Balanced alone { s with
      store := ({ s.store with fresh := s.store.fresh + 1 }.subscribe i (.handler ⟨s.store.fresh⟩)).1 } := by
    rw [Store.subscribe_eq]
    exact h.balanced.aside (Nat.le_succ _) rfl rfl rfl rfl rfl rfl
  refine ⟨{ hjoined with
    owes := fun b => (hjoined.owes b).congr (fun _ _ _ => .rfl) (fun _ => rfl) fun _ _ => rfl, actions := ?_ }, fun ht => ?_⟩
  · intro k x hx
    rw [Table.get?_insert] at hx
    split at hx
    · obtain rfl := Option.some.inj hx
      exact hactions
    · exact h.balanced.actions hx
  · rcases List.mem_append.1 ht with ht | ht
    · obtain ⟨e, -, rfl⟩ := List.mem_map.1 ht
      trivial
    · obtain rfl := List.mem_singleton.1 ht
      trivial

theorem InOrder.unsubscribe (h : InOrder alone s) {sink : String} {a : Answer} (ha : s.answerUnsubscribe sink = some a) :
    AnswersInBalance alone a := by
  simp only [answerUnsubscribe] at ha
  obtain ⟨k, hk, ha⟩ := Option.bind_eq_some_iff.1 ha
  obtain ⟨x, hx, ha⟩ := Option.bind_eq_some_iff.1 ha
  obtain rfl := Option.some.inj ha
  have hclosed : Still (alone = true) s { s with handlers := s.handlers.insert k { x with subscription := .closed } } :=
    .of_store (apart_setHandler hx rfl) rfl rfl rfl rfl
  exact .done (h.balanced.still (hclosed.trans (still_close ..)))

/-! ### Observers in the host's hands -/

/-- Where it does not matter which observers are live, one may be opened. -/
theorem InOrder.observe (h : InOrder false s) {system stream : String} {name : Option String} {a : Answer}
    (ha : s.answerObserve system stream name = some a) : AnswersInBalance false a := by
  simp only [answerObserve] at ha
  obtain ⟨⟨y, z⟩, hz, ha⟩ := Option.bind_eq_some_iff.1 ha
  obtain ⟨i, hi, ha⟩ := Option.bind_eq_some_iff.1 ha
  have hspares : s.store.Spares (z.registry.observerFor s.isAlive s.store i).1 := by
    cases hr : z.registry.get? s.store i with
    | some o =>
      rw [Registry.observerFor_of_get? hr]
      exact .refl
    | none =>
      rw [Registry.observerFor_of_none hr]
      exact (h.tidy.openObserver i).2
  have hopened : Balanced false { s with
      store := (z.registry.observerFor s.isAlive s.store i).1
      systems := s.systems.insert y { z with registry := (z.registry.observerFor s.isAlive s.store i).2.1 } } := by
    have hstore := h.balanced.still (still_spares hspares fun hfalse => by cases hfalse)
    exact hstore.aside (Nat.le_refl _) rfl rfl rfl rfl rfl rfl
  cases name with
  | none =>
    obtain rfl := Option.some.inj ha
    refine .done (hopened.of_owes (b := ⟨0⟩) (steady_letGoObserver ..).apart (bindings_letGoObserver ..) ?_)
    exact (hopened.owes _).letGoObserver fun e he => by cases he
  | some name =>
    obtain rfl := Option.some.inj ha
    exact .done (hopened.setName ..)

theorem still_destroy (hP : ¬P) (s : Session) (o : ObserverId) : Still P s (s.destroy o) where
  toApart := (steady_destroy s o).apart
  dues _ := by rw [bindings_destroy]
  entries z := by rw [listeners_destroy]
  live h := absurd h hP

theorem Balanced.destroyAll (h : Balanced false s) (os : List ObserverId) : Balanced false (os.foldl destroy s) := by
  induction os generalizing s with
  | nil => exact h
  | cons o os ih => exact ih (h.still (still_destroy (by simp) s o))

theorem Balanced.letGoRead (h : Balanced alone s) (reads : List Read) : Balanced alone (s.letGoRead reads) := by
  induction reads generalizing s with
  | nil => exact h
  | cons r reads ih =>
    cases r with
    | property => exact ih h
    | stream i o =>
      simp only [Session.letGoRead]
      split
      · exact ih h
      · refine ih (h.of_owes (b := ⟨0⟩) (steady_letGoObserver ..).apart (bindings_letGoObserver ..) ?_)
        exact (h.owes _).letGoObserver fun e he => by cases he

theorem InOrder.evaluateAlone (h : InOrder false s) {i : SystemId} {y : System} {place : Place} {scope : Scope}
    {host : Option Scope} {options : EvalOptions} {e : Expr} :
    AnswersInBalance false (s.evaluateAlone i y place scope host options e) := by
  unfold Session.evaluateAlone
  dsimp only
  split
  · exact .done h.balanced
  next e' _ =>
    have heval := evaluatesTo_evaluate h.tidy i place.flags scope host
      (if options.tracks then .everything else .nothing) e'
    have hbindings := bindings_evaluate s i place.flags scope host
      (if options.tracks then .everything else .nothing) e'
    refine .done (Balanced.letGoRead ?_ _)
    refine h.balanced.still ⟨apart_evaluate h.tidy .., fun c => by rw [hbindings], fun z => ?_, fun hP => by cases hP⟩
    rw [heval.spares.listeners]

theorem InOrder.evaluate (h : InOrder false s) {expression : HostExpr} {place : Place} {options : EvalOptions} {a : Answer}
    (ha : s.answerEvaluate expression place options = some a) : AnswersInBalance false a := by
  cases answer_evaluate ha with
  | refused => exact .done h.balanced
  | evaluated => exact h.evaluateAlone

theorem Balanced.shutdown (h : Balanced false s) (i : SystemId) (y : System) : Balanced false (s.shutdown i y) := by
  have hemptied : Balanced false { s with
      systems := s.systems.insert i { y with registry := { y.registry with entries := ∅ } } } :=
    h.aside (Nat.le_refl _) rfl rfl rfl rfl rfl rfl
  exact hemptied.destroyAll _

/-! ### Assigning -/

/-- On the way to a place, objects may be made that nobody listens to. -/
theorem Balanced.assign (h : Balanced alone s) (ht : s.store.Tidy) {i : SystemId} {flags : EvalFlags} {scope : Scope}
    {host : Option Scope} {e : Expr} {v : Value} {q : Reaction} (hq : s.assign i flags scope host e v = .ok q) :
    Balances alone q := by
  obtain ⟨z, t, d, -, hmakes, rfl⟩ := exists_makes_of_assign hq
  have hlisteners : ∀ w, (t.store.listeners w).entries = (s.store.listeners w).entries := by
    intro w
    cases w with
    | property p n =>
      simp only [Store.listeners]
      rcases hmakes.unheard p with hsame | ⟨hp, hnone⟩
      · rw [hsame]
      · have hunknown : s.store.objects.get? p = none := by
          cases hx : s.store.objects.get? p with
          | none => rfl
          | some x => exact absurd (ht.objects (p := p) (by simp [Store.Knows, hx])) (Nat.not_lt.2 hp)
        rw [hnone, Store.object, hunknown]
        rfl
    | observer o => simp only [Store.listeners, hmakes.observers]
    | collection c => simp only [Store.listeners, hmakes.collections]
  have hlive : ∀ o, t.store.isLive o = s.store.isLive o := fun o => by simp only [Store.isLive, hmakes.observers]
  have hmade : Still (alone = true) s (s.withEval i z t) :=
    ⟨⟨rfl, fun _ => rfl, hmakes.fresh⟩, fun _ => rfl, hlisteners, fun _ => hlive⟩
  exact (h.still hmade).write ..

theorem InOrder.assign (h : InOrder alone s) {expression : HostExpr} {place : Place} {value : HostValue} {a : Answer}
    (ha : s.answerAssign expression place value = some a) : AnswersInBalance alone a := by
  cases answer_assign ha with
  | refused => exact .done h.balanced
  | accepted _ _ hv hq =>
    obtain ⟨g', hm, -⟩ := made_valueOf? (g := s.bare) value h.sound hv
    exact (h.making hm).assign (spares_making hm h.tidy).1 hq
  | failed hv => exact .done (h.valueOf? hv)

theorem InOrder.updateSource (h : InOrder alone s) {binding : String} {value : HostValue} {a : Answer}
    (ha : s.answerUpdateSource binding value = some a) : AnswersInBalance alone a := by
  cases answer_updateSource ha with
  | accepted _ hv hq =>
    obtain ⟨g', hm, -⟩ := made_valueOf? (g := s.bare) value h.sound hv
    obtain ⟨y, -, hassign⟩ := exists_assign_of_updateSource hq
    have hassigned := (h.making hm).assign (spares_making hm h.tidy).1 hassign
    exact hassigned.andThen fun t ht => by rw [List.mem_singleton.1 ht]; trivial
  | failed hv => exact .done (h.valueOf? hv)

/-! ### Commands -/

theorem InOrder.bind (h : InOrder alone s) {binding scope : String} {host : Option String} {a : Answer}
    (ha : s.answerBind binding scope host = some a) : AnswersInBalance alone a := by
  have hbind : ∀ {b x k k'}, s.binding? binding = some (b, x) → s.scope? scope = some k → s.host? host = some k' →
      Balances alone (s.bind b x { scope := k, host := k' }).1 :=
    fun hb hscope hhost => h.balanced.bind h.sound h.dated (get?_of_binding? hb) (h.sound.outside.scope hscope)
      (h.sound.outside.host hhost)
  cases answer_bind ha with
  | bound hb hscope hhost hr =>
    have hr' := hbind hb hscope hhost
    rw [hr] at hr'
    exact hr'.andThen fun t ht => by rw [List.mem_singleton.1 ht]; trivial
  | failed hb hscope hhost hr =>
    have hr' := hbind hb hscope hhost
    rwa [hr] at hr'

theorem Balanced.record? (h : Balanced alone s) (name : String) : s.record? name = none := by
  unfold Session.record?
  cases s.named? .record name with
  | none => rfl
  | some i => simp [h.records]

/-- A command that leaves it to bindings to listen is answered in balance. -/
theorem InOrder.answers (h : InOrder alone s) {c : Command} (hc : c.defers alone = true) {a : Answer}
    (ha : s.answer? c = some a) : AnswersInBalance alone a := by
  have looks : ∀ {reply : Reply}, some ({ session := s, reply } : Answer) = some a → AnswersInBalance alone a := by
    rintro reply hr
    obtain rfl := Option.some.inj hr
    exact .done h.balanced
  cases c with
  | makeObject => exact h.makeObject ha
  | makeSubject => exact h.makeSubject ha
  | makeCold => exact h.makeCold ha
  | makeScope => exact h.makeScope ha
  | makeSystem => exact h.makeSystem ha
  | makeRecorder => exact h.makeRecorder ha
  | makeFromAttribute => exact h.makeAnswer (answer_makeFromAttribute ha)
  | makeBinding => exact h.makeAnswer (answer_makeBinding ha)
  | makeCollection | makeRecord | listen | unlisten | record => cases hc
  | addConverter =>
    obtain ⟨⟨i, y⟩, hy, ha⟩ := Option.bind_eq_some_iff.1 ha
    obtain rfl := Option.some.inj ha
    exact .done (h.balanced.aside (Nat.le_refl _) rfl rfl rfl rfl rfl rfl)
  | drop => exact h.drop ha
  | get | has | keys =>
    obtain ⟨o, ho, ha⟩ := Option.bind_eq_some_iff.1 ha
    exact looks ha
  | set => exact h.set ha
  | same | peek | resolve =>
    obtain ⟨x, hx, ha⟩ := Option.bind_eq_some_iff.1 ha
    obtain ⟨y, hy, ha⟩ := Option.bind_eq_some_iff.1 ha
    exact looks ha
  | notify => exact h.notify ha
  | next => exact h.next ha
  | fail | complete =>
    obtain ⟨i, hi, ha⟩ := Option.bind_eq_some_iff.1 ha
    obtain rfl := Option.some.inj ha
    exact h.balanced.terminate ..
  | subscribe => exact h.subscribe (Command.allDefer_iff.1 hc) ha
  | unsubscribe => exact h.unsubscribe ha
  | observe =>
    obtain rfl : alone = false := by simpa [Command.defers] using hc
    exact h.observe ha
  | prune =>
    obtain ⟨⟨i, y⟩, hy, ha⟩ := Option.bind_eq_some_iff.1 ha
    obtain rfl := Option.some.inj ha
    exact .done (h.balanced.aside (Nat.le_refl _) rfl rfl rfl rfl rfl rfl)
  | shutdown =>
    obtain rfl : alone = false := by simpa [Command.defers] using hc
    obtain ⟨⟨i, y⟩, hy, ha⟩ := Option.bind_eq_some_iff.1 ha
    obtain rfl := Option.some.inj ha
    exact .done (h.balanced.shutdown ..)
  | destroy =>
    obtain rfl : alone = false := by simpa [Command.defers] using hc
    obtain ⟨o, ho, ha⟩ := Option.bind_eq_some_iff.1 ha
    obtain rfl := Option.some.inj ha
    exact .done (h.balanced.still (still_destroy (by simp) s o))
  | setValue =>
    obtain ⟨o, ho, ha⟩ := Option.bind_eq_some_iff.1 ha
    exact looks ha
  | evaluate =>
    obtain rfl : alone = false := by simpa [Command.defers] using hc
    exact h.evaluate ha
  | assign => exact h.assign ha
  | bind => exact h.bind ha
  | unbind =>
    obtain ⟨⟨b, x⟩, hb, ha⟩ := Option.bind_eq_some_iff.1 ha
    obtain rfl := Option.some.inj ha
    exact .done (h.balanced.unbind b)
  | updateSource => exact h.updateSource ha
  | nextVersion | clearStale | clearRecord =>
    obtain ⟨⟨i, r⟩, hr, ha⟩ := Option.bind_eq_some_iff.1 ha
    rw [h.balanced.record?] at hr
    cases hr
  | describe =>
    obtain ⟨t, ht, ha⟩ := Option.bind_eq_some_iff.1 ha
    exact looks ha

theorem InOrder.execute (h : InOrder alone s) {c : Command} (hc : c.defers alone = true) :
    AnswersInBalance alone (s.execute c) := by
  unfold Session.execute
  cases ha : s.answer? c with
  | none => exact .done h.balanced
  | some a => exact h.answers hc ha

/-! ### Acts and runs -/

theorem Balances.push {q : Reaction} (h : Balances alone q) (hp : ∀ t ∈ q.session.pending, t.Defers alone) :
    Tended alone (q.session.push q.tasks) where
  balanced := h.session.aside (Nat.le_refl _) rfl rfl rfl rfl rfl rfl
  pending ht := (List.mem_append.1 ht).elim h.tasks (hp _)

/-- A task is taken from the top, and a part of it is put back. -/
theorem InOrder.take (h : InOrder alone s) {t : Task} {rest : List Task} (hp : s.pending = t :: rest) (ts : List Task)
    (hts : ∀ t' ∈ ts, t'.Defers alone ∧ ∀ x ∈ sharedInTask t', x ∈ sharedInTask t) :
    InOrder alone { s with pending := ts ++ rest } where
  balanced := h.balanced.aside (Nat.le_refl _) rfl rfl rfl rfl rfl rfl
  pending ht' := by
    rcases List.mem_append.1 ht' with ht' | ht'
    · exact (hts _ ht').1
    · exact h.pending (by simp [hp, ht'])
  sound := h.sound.take hp ts fun t' ht' => (hts t' ht').2
  dated := h.dated

theorem defers_left {t t' : Task} (h : t.Defers alone) (ht' : t' ∈ t.left) : t'.Defers alone := by
  cases Task.shortens_of_mem_left ht' with
  | notify | deliver | perform => simp_all [Task.Defers]

/-- What is left of a task stays under way. -/
theorem InOrder.left (h : InOrder alone s) {t : Task} {rest : List Task} (hp : s.pending = t :: rest) :
    InOrder alone { s with pending := t.left ++ rest } :=
  h.take hp _ fun _ ht' => ⟨defers_left (h.pending (by simp [hp])) ht', within_left ht'⟩

theorem InOrder.doTask (h : InOrder alone s) {t : Task} {rest : List Task} (hp : s.pending = t :: rest) :
    Tended alone ({ s with pending := rest }.doTask t) := by
  have hrest : InOrder alone { s with pending := rest } := h.take hp [] fun _ ht => by cases ht
  have ht : t.Defers alone := h.pending (by simp [hp])
  cases t with
  | notify x new previous ls =>
    cases ls with
    | nil => exact hrest.toTended
    | cons l ls =>
      obtain ⟨b, rfl⟩ := ht l (List.mem_cons_self ..)
      have hmore : InOrder alone { s with pending := [.notify x new previous ls] ++ rest } := h.left hp
      simp only [Session.doTask]
      split
      · have htell : Balances alone (({ s with pending := [.notify x new previous ls] ++ rest } : Session).tell new previous
            (.binding b)) :=
          (hmore.balanced.refresh hmore.sound hmore.dated b).andThen fun t ht => by rw [List.mem_singleton.1 ht]; trivial
        refine htell.push fun t ht => hmore.pending ?_
        rwa [pending_tell hmore.sound] at ht
      · exact hmore.toTended
  | deliver i e ks =>
    cases ks with
    | nil => exact hrest.toTended
    | cons k ks =>
      have hmore : InOrder alone { s with pending := [.deliver i e ks] ++ rest } := h.left hp
      have hnext := pending_receive_next h.sound hp
      refine (hmore.balanced.receive e k).push fun t ht => hmore.pending ?_
      have ht' : t ∈ .deliver i e ks :: rest := by
        rw [← hnext]
        exact ht
      exact ht'
  | perform label cs =>
    cases cs with
    | nil => exact hrest.toTended
    | cons c cs =>
      have hmore : InOrder alone { s with pending := [.perform label cs] ++ rest } := h.left hp
      have hdone : AnswersInBalance alone (({ s with pending := [.perform label cs] ++ rest } : Session).execute c) :=
        hmore.execute (ht c (List.mem_cons_self ..))
      refine (hdone.andThen fun t ht => ?_).push fun t ht => hmore.pending ?_
      · obtain rfl := List.mem_singleton.1 ht
        trivial
      have hsame := pending_execute hmore.sound c
      exact hsame ▸ ht
  | report label reply =>
    exact ⟨hrest.balanced.aside (Nat.le_refl _) rfl rfl rfl rfl rfl rfl, hrest.pending⟩
  | keep r =>
    refine ⟨hrest.balanced.letGo r, fun ht => hrest.pending ?_⟩
    have hm : Moves Silent (bare { s with pending := rest }, { s with pending := rest }) _ := .letGo hrest.sound r
    exact (Moves.pending hm not_silent_work) ▸ ht
  | adopt name k =>
    refine ⟨hrest.balanced.setName name k.ref, fun ht => hrest.pending ?_⟩
    have hm : Moves Silent (bare { s with pending := rest }, { s with pending := rest })
        (bare { s with pending := rest }, ({ s with pending := rest } : Session).setName name ⟨.sink, k.number⟩) :=
      .setNameOf hrest.sound (by decide)
    exact (Moves.pending hm not_silent_work) ▸ ht

/-- What is left to bindings keeps registrations and records in balance. -/
theorem InOrder.act (h : InOrder alone s) {a : Act} (ha : a.defers alone = true) : InOrder alone (s.act a) where
  sound := h.sound.act a
  dated := by
    obtain ⟨g, hm⟩ := moves_act h.sound (fun _ _ _ => False) a
    exact h.dated.moves hm
  toTended := by
    cases a with
    | command c =>
      refine (h.execute ha).push fun t ht => h.pending ?_
      have hsame := pending_execute h.sound c
      exact hsame ▸ ht
    | step =>
      simp only [Session.act, step]
      split
      · exact h.toTended
      next t rest hp => exact h.doTask hp

theorem InOrder.play (h : InOrder alone s) {as : List Act} (has : ∀ a ∈ as, a.defers alone = true) :
    InOrder alone (s.play as) := by
  induction as generalizing s with
  | nil => exact h
  | cons a as ih => exact ih (h.act (has a (by simp))) fun a' ha' => has a' (List.mem_cons_of_mem _ ha')

theorem balanced_empty : Balanced alone {} where
  owes b :=
    { registered := fun {z n l} => by
        constructor
        · intro hl
          cases z <;> cases hl
        · rintro ⟨c, -, ⟨x, e, hx, -⟩ | ⟨-, e, he, -⟩⟩
          · cases hx
          · cases he
      distinct := .nil
      apart := fun he => by cases he
      heard := fun _ o => by
        constructor
        · intro ho
          cases ho
        · rintro (hne | ⟨i, hi⟩)
          · exact absurd rfl hne
          · cases hi }
  idle hx := by cases hx
  old hc := by cases hc
  records _ := rfl
  actions hx := by cases hx

theorem inOrder_initial : InOrder alone initial where
  balanced := by
    have hmade : Balanced alone { ({} : Session).fresh.1 with systems := Table.insert ∅ ⟨0⟩ (System.ofConfig {}) } :=
      balanced_empty.aside (Nat.le_succ _) rfl rfl rfl rfl rfl rfl
    exact hmade.setName ..
  pending ht := by cases ht
  sound := sound_initial
  dated _ ho := by cases ho

end Session

end DataBinding
