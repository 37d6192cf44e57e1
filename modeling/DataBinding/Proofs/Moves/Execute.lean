import DataBinding.Proofs.Answers
import DataBinding.Proofs.Moves.Lookup
import DataBinding.Proofs.Moves.React

/-!
# Commands are answered by moves

Each command is a sequence of moves, and leaves tasks that refer to nothing but what is in hand (`answers_execute`). The
commands that emit from a subject or end one, write a property, or bind a binding are told apart from all others by
`Allows`.
-/

namespace DataBinding

namespace Session

variable {g g' : Ghost} {s s' : Session}

/-! ### Commands -/

/-- Whether the stream is a subject that has not ended. -/
def isOpen (s : Session) (i : StreamId) : Bool :=
  match s.store.streams.get? i with
  | some (.subject x) => !x.isClosed
  | _ => false

/-- The value that a command emits, and the subject that emits it. -/
def emission? (s : Session) : Command → Option (StreamId × Value)
  | .next stream value => do
    let i ← s.named? .stream stream
    let (_, v) ← s.valueOf? value
    if s.isOpen i then some (i, v) else none
  | _ => none

/-- The binding that a command binds. -/
def bindingOf? (s : Session) : Command → Option BindingId
  | .bind binding _ _ => (s.binding? binding).map (·.1)
  | _ => none

end Session

/-- Whether a command writes a property. -/
def Command.writes : Command → Bool
  | .set .. | .assign .. | .bind .. | .updateSource .. => true
  | _ => false

/-- Whether a command ends a subject. -/
def Command.ends : Command → Bool
  | .fail .. | .complete .. => true
  | _ => false

namespace Session

variable {g g' : Ghost} {s s' : Session}

/-- What a command may do that others can see. -/
inductive Allows (s : Session) (c : Command) : Effect → Prop
  | calm {f} : Calm f → Allows s c f
  | puts {o n} : c.writes = true → Allows s c (.puts o n)
  | hears {b} : s.bindingOf? c = some b → Allows s c (.hears b)
  | emits {i v} : s.emission? c = some (i, v) → Allows s c (.emits i v)
  | ends {i e} : c.ends = true → Allows s c (.ends i e)

/-- If there is an answer, it is one of those. -/
def Ensures (P : Answer → Prop) (a? : Option Answer) : Prop := ∀ a, a? = some a → P a

namespace Ensures

variable {P : Answer → Prop}

theorem some {a : Answer} (h : P a) : Ensures P (some a) := fun _ ha => Option.some.inj ha ▸ h

theorem bind {α : Type} {x? : Option α} {f : α → Option Answer} (h : ∀ x, x? = Option.some x → Ensures P (f x)) :
    Ensures P (x? >>= f) := by
  intro a ha
  obtain ⟨x, hx, ha⟩ := Option.bind_eq_some_iff.1 ha
  exact h x hx a ha

theorem bind_pair {α β : Type} {x? : Option (α × β)} {f : α × β → Option Answer}
    (h : ∀ a b, x? = Option.some (a, b) → Ensures P (f (a, b))) : Ensures P (x? >>= f) :=
  bind fun x => h x.1 x.2

/-- Values that the host writes are made of objects alone. -/
theorem valueOf? (h : Sound g.hand s) {u : HostValue} {f : Session × Value → Option Answer}
    (hf : ∀ (t : Session) (v : Value) (g' : Ghost), Sound g'.hand t → Moves Making (g, s) (g', t) →
      Ensures P (f (t, v))) :
    Ensures P (s.valueOf? u >>= f) := by
  refine bind_pair fun t v hv => ?_
  obtain ⟨g', hm, -⟩ := made_valueOf? u h hv
  exact hf t v g' (h.making hm) hm

end Ensures

/-- The answer is reached by moves, and its tasks refer to what is in hand. -/
abbrev AnswersWith (E : Effect → Prop) (g : Ghost) (s : Session) (a : Answer) : Prop :=
  ReactsWith E g s { session := a.session, tasks := a.tasks }

/-- The answer comes to its end with a write. -/
abbrev AnswerConcludes (E : Effect → Prop) (g : Ghost) (s : Session) (a : Answer) : Prop :=
  Concludes E g s { session := a.session, tasks := a.tasks }

theorem ReactsWith.silent {c : Command} {r : Reaction} (h : ReactsWith Silent g s r) : ReactsWith (s.Allows c) g s r :=
  h.mono fun _ hf => .calm (.inl hf)

/-- What a command does that writes a property, before it writes. -/
def Preparing (s : Session) (c : Command) (f : Effect) : Prop := Calm f ∨ ∃ b, s.bindingOf? c = some b ∧ f = .hears b

theorem Concludes.preparing {c : Command} {r : Reaction} (h : Concludes Silent g s r) :
    Concludes (s.Preparing c) g s r :=
  h.mono fun _ hf => .inl (.inl hf)

theorem Concludes.allowed {c : Command} {r : Reaction} (hr : Concludes (s.Preparing c) g s r) (h : Sound g.hand s)
    (hc : c.writes = true) : ReactsWith (s.Allows c) g s r := by
  refine (hr.reacts h fun f hf => .inl (.inl hf)).mono ?_
  rintro f ((hf | ⟨b, hb, rfl⟩) | ⟨o, n, rfl⟩)
  · exact .calm hf
  · exact .hears hb
  · exact .puts hc

theorem answers_refl {E : Effect → Prop} {reply : Reply} : AnswersWith E g s { session := s, reply } :=
  ⟨g, .refl, by simp⟩

theorem ReactsWith.done {E : Effect → Prop} {t : Session} (hm : Moves E (g, s) (g', t)) :
    ReactsWith E g s { session := t } :=
  ⟨g', hm, by simp⟩

theorem Moves.fresh : Moves Silent (g, s) (g, s.fresh.1) := .silent (.quiet (Nat.le_succ _))

theorem within_nil {H : Shared → Prop} : Within H [] := fun _ h => by cases h

theorem Moves.setNameOf (h : Sound g.hand s) {name : String} {k : Thing} {n : Nat}
    (hk : k ≠ .object ∧ k ≠ .stream ∧ k ≠ .scope) : Moves Silent (g, s) (g, s.setName name ⟨k, n⟩) := by
  refine .setName h ?_
  unfold sharedInName
  split
  next hk' => exact absurd hk' hk.1
  next hk' => exact absurd hk' hk.2.1
  next hk' => exact absurd hk' hk.2.2
  · exact within_nil

theorem answers_addBinding (h : Sound g.hand s) {name : String} {b : Binding} (hb : Within g.hand (sharedInBinding b))
    (hs : (s.systems.get? b.system).isSome) (he : b.lastError = none) :
    AnswersWith Silent g s (s.addBinding name b) := by
  have hm := Moves.silent (.newBinding hb hs he)
  exact .done (hm.trans (.setNameOf (h.moves hm) (by decide)))

/-- A new object, stream or scope is given its name. -/
theorem Moves.setNameShared (h : Sound g.hand s) {name : String} {k : Thing} {n : Nat}
    (hn : Within g.hand (s.sharedInName ⟨k, name⟩ n)) : Moves Silent (g, s) (g, s.setName name ⟨k, n⟩) :=
  .setName h hn

theorem answers_makeObject (h : Sound g.hand s) {name : String} {properties : List (String × HostValue)} {a : Answer}
    (ha : s.answerMakeObject name properties = some a) : AnswersWith Silent g s a := by
  simp only [answerMakeObject] at ha
  obtain ⟨⟨t, ps⟩, hps, ha⟩ := Option.bind_eq_some_iff.1 ha
  obtain rfl := Option.some.inj ha
  obtain ⟨g', hm, hw⟩ := made_propertiesOf? properties h hps
  have hm' := hm.trans (.newObject _ hw)
  refine .done (hm'.making.trans (.setNameShared (h.making hm') ?_))
  intro x hx
  obtain rfl := List.mem_singleton.1 hx
  exact .inr rfl

/-- A new stream is given its name. -/
theorem answers_newStream (h : Sound g.hand s) {x : Stream} (hx : Within g.hand (sharedInStream x))
    (hs : ∀ y, x = .subject y → y.sinks = []) (name : String) :
    AnswersWith Silent g s
      { session := { s with store := (s.store.newStream x).1 }.setName name (s.store.newStream x).2.ref } := by
  have hm := Moves.silent (.newStream (s := s) hx hs)
  refine .done (hm.trans (.setNameShared (h.moves hm) ?_))
  intro y hy
  obtain rfl := List.mem_singleton.1 hy
  exact .inr rfl

/-- A new subject that replays its value has it from the host. -/
theorem made_subjectOf? (h : Sound g.hand s) {initial : Option HostValue} {x : Subject}
    (hx : s.subjectOf? initial = some (s', x)) :
    ∃ g', Moves Making (g, s) (g', s') ∧ Within g'.hand (sharedInStream (.subject x)) ∧ x.sinks = [] ∧
      x.terminal = none := by
  cases initial with
  | none =>
    obtain ⟨rfl, rfl⟩ := Prod.mk.inj (Option.some.inj hx)
    exact ⟨g, .refl, by simp [sharedInStream, Within], rfl, rfl⟩
  | some v =>
    obtain ⟨⟨t, w⟩, hw, hx⟩ := Option.map_eq_some_iff.1 hx
    obtain ⟨rfl, rfl⟩ := Prod.mk.inj hx
    obtain ⟨g', hm, hv⟩ := made_valueOf? v h hw
    exact ⟨g', hm, by simpa [sharedInStream] using hv, rfl, rfl⟩

theorem answers_makeSubject (h : Sound g.hand s) {name : String} {initial : Option HostValue} {a : Answer}
    (ha : s.answerMakeSubject name initial = some a) : AnswersWith Silent g s a := by
  simp only [answerMakeSubject] at ha
  obtain ⟨⟨t, x⟩, hx, ha⟩ := Option.bind_eq_some_iff.1 ha
  obtain rfl := Option.some.inj ha
  obtain ⟨g', hm, hw, hsinks, -⟩ := made_subjectOf? h hx
  exact .of_moves hm.making (answers_newStream (h.making hm) hw (by rintro y ⟨⟩; exact hsinks) name)

theorem answers_makeCold (h : Sound g.hand s) {name : String} {events : List HostEvent} {a : Answer}
    (ha : s.answerMakeCold name events = some a) : AnswersWith Silent g s a := by
  simp only [answerMakeCold] at ha
  obtain ⟨⟨t, es⟩, hes, ha⟩ := Option.bind_eq_some_iff.1 ha
  obtain rfl := Option.some.inj ha
  obtain ⟨g', hm, hw⟩ := made_eventsOf? events h hes
  have hx : Within g'.hand (sharedInStream (.cold name es)) := Within.flatMap.2 hw
  exact .of_moves hm.making (answers_newStream (h.making hm) hx (by rintro y ⟨⟩) name)

/-- A new scope whose levels are in hand is given its name. -/
theorem answers_newScope (h : Sound g.hand s) {inner : Level} {outer : List Level}
    (hw : ∀ l ∈ inner :: outer, g.hand (.object l.context) ∧ g.hand (.object l.override)) (name : String) :
    AnswersWith Silent g s
      { session := { s.fresh.1 with
          scopes := s.fresh.1.scopes.insert ⟨s.fresh.2⟩ { id := ⟨s.fresh.2⟩, inner, outer } }.setName name
            ⟨.scope, s.fresh.2⟩ } := by
  have hscope : Within g.hand (sharedInScope { id := ⟨s.fresh.2⟩, inner, outer }) := within_scope.2 hw
  have hm := (Moves.fresh (g := g) (s := s)).trans (.silent (.scope (n := ⟨s.fresh.2⟩) hscope))
  refine .done (hm.trans (.setNameShared (h.moves hm) ?_))
  simpa [sharedInName, Table.get?_insert] using hscope

theorem Outside.outer {H : Shared → Prop} (h : Outside H s) {parent : Option String} {outer : List Level}
    (ho : s.outer? parent = some outer) : ∀ l ∈ outer, H (.object l.context) ∧ H (.object l.override) := by
  cases parent with
  | none =>
    obtain rfl := Option.some.inj ho
    simp
  | some p =>
    obtain ⟨x, hx, rfl⟩ := Option.map_eq_some_iff.1 ho
    exact within_scope.1 (h.scope hx)

theorem made_override? {name : Option String} {o : ObjectId} (h : Sound g.hand s) (ho : s.override? name = some (s', o)) :
    ∃ g', Moves Making (g, s) (g', s') ∧ g'.hand (.object o) := by
  cases name with
  | none =>
    obtain ⟨rfl, rfl⟩ := Prod.mk.inj (Option.some.inj ho)
    exact ⟨_, .newObject [] (by simp), .inr rfl⟩
  | some name =>
    obtain ⟨p, hp, ho⟩ := Option.map_eq_some_iff.1 ho
    obtain ⟨rfl, rfl⟩ := Prod.mk.inj ho
    exact ⟨g, .refl, h.outside.object hp⟩

theorem answers_makeScope (h : Sound g.hand s) {name context : String} {parent override : Option String} {a : Answer}
    (ha : s.answerMakeScope name context parent override = some a) : AnswersWith Silent g s a := by
  simp only [answerMakeScope] at ha
  obtain ⟨c, hc, ha⟩ := Option.bind_eq_some_iff.1 ha
  obtain ⟨outer, hout, ha⟩ := Option.bind_eq_some_iff.1 ha
  obtain ⟨⟨t, o⟩, ho, ha⟩ := Option.bind_eq_some_iff.1 ha
  obtain rfl := Option.some.inj ha
  obtain ⟨g', hm, hg'⟩ := made_override? h ho
  refine .of_moves hm.making (answers_newScope (h.making hm) (fun l hl => ?_) name)
  rcases List.mem_cons.1 hl with rfl | hl
  · exact ⟨hm.making.hand_mono (h.outside.object hc), hg'⟩
  · exact (h.outside.outer hout l hl).imp hm.making.hand_mono hm.making.hand_mono

/-- A new system has opened nothing. -/
theorem Moves.newSystem (h : Sound g.hand s) (name : String) (config : Config) :
    Moves Silent (g, s) (g, { s.fresh.1 with
      systems := s.fresh.1.systems.insert ⟨s.fresh.2⟩ (System.ofConfig config) }.setName name ⟨.system, s.fresh.2⟩) := by
  have hfresh := h.moves (Moves.fresh (g := g) (s := s))
  have hfree : ∀ y, (s.systems.get? y).isSome → (⟨s.store.fresh⟩ : SystemId) ≠ y := by
    rintro y hy rfl
    exact Nat.lt_irrefl _ (h.systemsOld hy)
  have hm : Moves Silent (g, s) (g, { s.fresh.1 with
      systems := s.fresh.1.systems.insert ⟨s.fresh.2⟩ (System.ofConfig config) }) := by
    refine Moves.fresh.trans (.silent (.systems ?_ ?_ ?_ ?_ ?_))
    · intro y hy
      rw [Table.get?_insert] at hy
      split at hy
      next he =>
        subst he
        exact Nat.lt_succ_self _
      · exact hfresh.systemsOld hy
    · intro y hy
      rw [Table.get?_insert]
      split
      · rfl
      · exact hy
    · intro y n c hc
      rw [converterIn_insert] at hc
      split at hc
      · cases hc
      · exact .inr hc
    · intro y i o ho
      rw [entryIn_insert] at ho
      split at ho
      · cases ho
      · exact ho
    · intro y i o ho _ _
      rw [entryIn_insert]
      split
      next he =>
        have hy : (s.systems.get? y).isSome := by
          obtain ⟨z, hz, _⟩ := Option.bind_eq_some_iff.1 ho
          exact Option.isSome_iff_exists.2 ⟨z, hz⟩
        exact absurd he (hfree y hy)
      · exact ho
  exact hm.trans (.setNameOf (h.moves hm) (by decide))

theorem answers_makeSystem (h : Sound g.hand s) {name : String} {config : Config} {a : Answer}
    (ha : s.answerMakeSystem name config = some a) : AnswersWith Silent g s a := by
  simp only [answerMakeSystem] at ha
  split at ha
  · obtain rfl := Option.some.inj ha
    exact answers_refl
  · obtain rfl := Option.some.inj ha
    exact .done (.newSystem h name config)

theorem answers_makeRecorder (h : Sound g.hand s) {name : String} {actions : List Command} {limit : Nat} {a : Answer}
    (ha : s.answerMakeRecorder name actions limit = some a) : AnswersWith Silent g s a := by
  simp only [answerMakeRecorder] at ha
  obtain rfl := Option.some.inj ha
  have hm : Moves Silent (g, s) (g, { s.fresh.1 with
      recorders := s.fresh.1.recorders.insert ⟨s.fresh.2⟩ { label := name, actions, limit } }) :=
    .silent (.quiet (Nat.le_succ _))
  exact .done (hm.trans (.setNameOf (h.moves hm) (by decide)))

theorem answers_makeCollection (h : Sound g.hand s) {name : String} {a : Answer}
    (ha : s.answerMakeCollection name = some a) : AnswersWith Silent g s a := by
  simp only [answerMakeCollection] at ha
  obtain rfl := Option.some.inj ha
  have hm : Moves Silent (g, s) (g, { s.fresh.1 with
      store := { s.fresh.1.store with collections := s.fresh.1.store.collections.insert ⟨s.fresh.2⟩ {} } }) :=
    .silent (.quiet (Nat.le_succ _))
  exact .done (hm.trans (.setNameOf (h.moves hm) (by decide)))

theorem Moves.insertRecord {r : RecordId} {x : Observations} (hx : Within g.hand (sharedInRecord x)) :
    Moves Silent (g, s) (g, { s with records := s.records.insert r x }) := by
  refine .silent (.records fun c z hz => ?_)
  rw [Table.get?_insert] at hz
  split at hz
  · exact .inr (Option.some.inj hz ▸ hx)
  · exact .inl hz

theorem answers_makeRecord (h : Sound g.hand s) {name : String} {a : Answer}
    (ha : s.answerMakeRecord name = some a) : AnswersWith Silent g s a := by
  simp only [answerMakeRecord] at ha
  obtain rfl := Option.some.inj ha
  have hm : Moves Silent (g, s) (g, { s.fresh.1 with records := s.fresh.1.records.insert ⟨s.fresh.2⟩ {} }) :=
    Moves.fresh.trans (.insertRecord (by simp [sharedInRecord, Within]))
  exact .done (hm.trans (.setNameOf (h.moves hm) (by decide)))

theorem Sound.newBinding (h : Sound g.hand s) {name : String} {o : ObjectId} (ho : s.named? .object name = some o)
    {b : Binding} (ht : b.target = o) (hv : b.value = .undefined) (hr : b.observations = {}) (hs : b.state = none) :
    Within g.hand (sharedInBinding b) := by
  refine within_binding.2 ⟨ht ▸ h.outside.object ho, ?_, ?_, ?_⟩
  · rw [hv]
    exact within_nil
  · rw [hr]
    exact within_nil
  · rw [hs]
    exact fun _ hy => by cases hy

theorem get?_of_system? {name : String} {i : SystemId} {y : System} (h : s.system? name = some (i, y)) :
    s.systems.get? i = some y := by
  obtain ⟨j, hj, h⟩ := Option.bind_eq_some_iff.1 h
  obtain ⟨z, hz, h⟩ := Option.bind_eq_some_iff.1 h
  obtain ⟨rfl, rfl⟩ := Prod.mk.inj (Option.some.inj h)
  exact hz

theorem MakeAnswer.answers (h : Sound g.hand s) {name system target : String} {a : Answer}
    (ha : MakeAnswer s name system target a) : AnswersWith Silent g s a := by
  cases ha with
  | refused => exact answers_refl
  | made hi ho hx =>
    refine answers_addBinding h (h.newBinding ho hx.target hx.value hx.observations hx.state) ?_ hx.failed
    rw [hx.system]
    exact Option.isSome_of_eq_some (get?_of_system? hi)

theorem StockConverter.isTame (c : StockConverter) : c.converter.IsTame := by
  cases c with
  | upper => exact ⟨fun _ _ => within_nil, fun hv _ => hv⟩
  | join => exact ⟨fun _ _ => within_nil, fun hv _ => hv⟩
  | first =>
    refine ⟨fun {H v xs} _ hxs => ?_, fun hv _ => hv⟩
    cases xs with
    | nil => exact within_nil
    | cons x xs => exact hxs x (by simp)
  | wrap =>
    refine ⟨fun _ _ => within_nil, fun {H v xs} hv hxs => ?_⟩
    simp only [StockConverter.converter, sharedIn, sharedInAll_eq, List.flatMap_cons, Within.append, Within.flatMap]
    exact ⟨hv, hxs⟩

theorem answers_addConverter (h : Sound g.hand s) {system name : String} {c : StockConverter} {a : Answer}
    (ha : s.answerAddConverter system name c = some a) : AnswersWith Silent g s a := by
  simp only [answerAddConverter] at ha
  obtain ⟨⟨i, y⟩, hy, ha⟩ := Option.bind_eq_some_iff.1 ha
  obtain rfl := Option.some.inj ha
  have hy := get?_of_system? hy
  refine .done (.silent (.systems ?_ ?_ ?_ ?_ ?_))
  · intro z hz
    rw [Table.get?_insert] at hz
    split at hz
    next he =>
      subst he
      exact h.systemsOld (by simp [hy])
    · exact h.systemsOld hz
  · intro z hz
    rw [Table.get?_insert]
    split
    · rfl
    · exact hz
  · intro z n d hd
    rw [converterIn_insert] at hd
    split at hd
    next he =>
      subst he
      simp only [Table.get?_insert] at hd
      split at hd
      · exact .inl (Option.some.inj hd ▸ StockConverter.isTame c)
      · exact .inr (by rwa [converterIn_of_get? hy])
    · exact .inr hd
  · intro z j o ho
    rw [entryIn_insert] at ho
    split at ho
    next he =>
      subst he
      rwa [entryIn_of_get? hy]
    · exact ho
  · intro z j o ho _ _
    rw [entryIn_insert]
    split
    next he =>
      subst he
      rwa [entryIn_of_get? hy] at ho
    · exact ho

theorem answers_drop (h : Sound g.hand s) {what : Thing} {name : String} {a : Answer}
    (ha : s.answerDrop what name = some a) : AnswersWith Silent g s a := by
  simp only [answerDrop] at ha
  split at ha
  · obtain rfl := Option.some.inj ha
    exact answers_refl
  · obtain rfl := Option.some.inj ha
    have hm : Moves Silent (g, s) (g, { s with names := s.names.erase ⟨what, name⟩ }) := by
      refine .silent (.names fun k n hk => .inl ?_)
      rw [Table.get?_erase] at hk
      split at hk
      · cases hk
      · exact hk
    exact .done (hm.trans (.letGo (h.moves hm) _))

theorem concludes_set (h : Sound g.hand s) {object name : String} {value : HostValue} {a : Answer}
    (ha : s.answerSet object name value = some a) : AnswerConcludes Silent g s a := by
  simp only [answerSet] at ha
  obtain ⟨o, ho, ha⟩ := Option.bind_eq_some_iff.1 ha
  obtain ⟨⟨t, v⟩, hv, ha⟩ := Option.bind_eq_some_iff.1 ha
  obtain rfl := Option.some.inj ha
  obtain ⟨g', hm, hw⟩ := made_valueOf? value h hv
  exact .write hm.making (hm.making.hand_mono (h.outside.object ho)) name hw

theorem answers_listen (h : Sound g.hand s) {source : HostSource} {recorder token : String} {a : Answer}
    (ha : s.answerListen source recorder token = some a) : AnswersWith Silent g s a := by
  simp only [answerListen] at ha
  obtain ⟨x, hx, ha⟩ := Option.bind_eq_some_iff.1 ha
  obtain ⟨r, hr, ha⟩ := Option.bind_eq_some_iff.1 ha
  obtain rfl := Option.some.inj ha
  have hlisten := (Moves.storeListen (s := s) (h.outside.source hx) (.recorder r) (by simp)).mono fun _ => Hearing.silent
  exact .done (hlisten.trans (.silent (.quiet (Nat.le_refl _))))

theorem answers_unlisten (h : Sound g.hand s) {source : HostSource} {token : String} {a : Answer}
    (ha : s.answerUnlisten source token = some a) : AnswersWith Silent g s a := by
  simp only [answerUnlisten] at ha
  obtain ⟨x, hx, ha⟩ := Option.bind_eq_some_iff.1 ha
  obtain ⟨t, ht, ha⟩ := Option.bind_eq_some_iff.1 ha
  obtain rfl := Option.some.inj ha
  exact .done (.unlisten (h.outside.source hx) t)

theorem answers_notify (h : Sound g.hand s) {collection : String} {new previous : HostValue} {a : Answer}
    (ha : s.answerNotify collection new previous = some a) : AnswersWith Silent g s a := by
  simp only [answerNotify] at ha
  obtain ⟨c, hc, ha⟩ := Option.bind_eq_some_iff.1 ha
  obtain ⟨⟨t, v⟩, hv, ha⟩ := Option.bind_eq_some_iff.1 ha
  obtain ⟨⟨t', w⟩, hw, ha⟩ := Option.bind_eq_some_iff.1 ha
  obtain rfl := Option.some.inj ha
  obtain ⟨g', hm, hv⟩ := made_valueOf? new h hv
  obtain ⟨g'', hm', hw⟩ := made_valueOf? previous (h.making hm) hw
  exact .of_moves (hm.trans hm').making (reacts_notify within_nil
    (hv.mono fun _ => hm'.making.hand_mono) hw)

/-- Emitting is a move only if the subject has not ended. -/
theorem reacts_emit_of_open {i : StreamId} (hi : g.hand (.stream i)) {v : Value} (hv : Within g.hand (sharedIn v)) :
    ReactsWith (fun f => f = .emits i v ∧ s.isOpen i = true) g s (s.emit i v) := by
  obtain ⟨g', hm, ht⟩ := reacts_emit (s := s) hi hv
  cases hopen : s.isOpen i with
  | true => exact ⟨g', hm.mono fun f hf => ⟨hf, rfl⟩, ht⟩
  | false =>
    unfold isOpen at hopen
    unfold Session.emit at ht ⊢
    split
    next x hx =>
      have hc : x.isClosed = true := by simpa [hx] using hopen
      have hemit : x.emit v = (x, []) := by simp [Subject.emit, hc]
      rw [hemit]
      refine ⟨g, ?_, fun t ht => ?_⟩
      · have : { s with store := s.store.setStream i (.subject x) } = s := by
          rw [Store.setStream, Table.insert_of_get? hx]
        dsimp only
        rw [this]
        exact .refl
      · obtain rfl := List.mem_singleton.1 ht
        intro y hy
        rcases List.mem_cons.1 hy with rfl | hy
        · exact hi
        · exact hv y hy
    · exact ⟨g, .refl, by simp⟩

theorem isOpen_making (hm : Moves Making (g, s) (g', s')) (i : StreamId) : s'.isOpen i = s.isOpen i := by
  obtain ⟨objects, fresh, rfl, -⟩ := making_eq hm
  rfl

theorem answers_next (h : Sound g.hand s) {stream : String} {value : HostValue} {a : Answer}
    (ha : s.answerNext stream value = some a) : AnswersWith (s.Allows (.next stream value)) g s a := by
  simp only [answerNext] at ha
  obtain ⟨i, hi, ha⟩ := Option.bind_eq_some_iff.1 ha
  obtain ⟨⟨t, v⟩, hv, ha⟩ := Option.bind_eq_some_iff.1 ha
  obtain rfl := Option.some.inj ha
  obtain ⟨g', hm, hw⟩ := made_valueOf? value h hv
  have hopen := isOpen_making hm i
  refine .of_moves (hm.mono fun f hf => .calm (.inl (.inr hf))) (.mono (fun f hf => ?_)
    (reacts_emit_of_open (hm.making.hand_mono (h.outside.stream hi)) hw))
  obtain ⟨rfl, ht⟩ := hf
  exact .emits (by simp [emission?, hi, hv, ← hopen, ht])

theorem answers_terminate (h : Sound g.hand s) {stream : String} {i : StreamId} (hi : s.named? .stream stream = some i)
    {e : StreamEvent} (he : sharedInEvent e = []) {c : Command} (hc : c.ends = true) :
    AnswersWith (s.Allows c) g s ((s.terminate i e).answer .done) :=
  .mono (fun f (hf : f = _) => hf ▸ .ends hc) (reacts_terminate (h.outside.stream hi) he)

theorem answers_subscribe (h : Sound g.hand s) {name stream : String} {actions : List Command} {limit : Nat} {a : Answer}
    (ha : s.answerSubscribe name stream actions limit = some a) : AnswersWith Silent g s a := by
  simp only [answerSubscribe] at ha
  obtain ⟨i, hi, ha⟩ := Option.bind_eq_some_iff.1 ha
  obtain rfl := Option.some.inj ha
  have hi := h.outside.stream hi
  have heq := Store.subscribe_eq ({ s.store with fresh := s.store.fresh + 1 }) i (.handler ⟨s.store.fresh⟩)
  have hsub : ({ s.store with fresh := s.store.fresh + 1 } : Store).subscription i (.handler ⟨s.store.fresh⟩) =
      s.store.subscription i (.handler ⟨s.store.fresh⟩) := by
    unfold Store.subscription Store.subscribe
    cases s.store.streams.get? i <;> rfl
  refine ⟨g, .silent (.subscribing (i := i) ?_), fun t ht => ?_⟩
  · change (({ s.store with fresh := s.store.fresh + 1 } : Store).subscribe i (.handler ⟨s.store.fresh⟩)).2.1 = _
    rw [heq, hsub]
  · rcases List.mem_append.1 ht with ht | ht
    · obtain ⟨e, he, rfl⟩ := List.mem_map.1 ht
      change e ∈ (({ s.store with fresh := s.store.fresh + 1 } : Store).subscribe i (.handler ⟨s.store.fresh⟩)).2.2 at he
      rw [heq] at he
      have hw : Within g.hand (sharedInEvent e) := by
        change e ∈ Store.greeting s.store i at he
        unfold Store.greeting at he
        cases hx : s.store.streams.get? i with
        | none => simp [hx] at he
        | some x =>
          have hw : Within g.hand (sharedInStream x) := by simpa [contents, hx] using h.closed hi
          exact sharedInStream_greeting hw (by simpa [hx] using he)
      intro y hy
      rcases List.mem_cons.1 hy with rfl | hy
      · exact hi
      · exact hw y hy
    · obtain rfl := List.mem_singleton.1 ht
      exact within_nil

theorem answers_unsubscribe {sink : String} {a : Answer} (ha : s.answerUnsubscribe sink = some a) :
    AnswersWith Silent g s a := by
  simp only [answerUnsubscribe] at ha
  obtain ⟨k, hk, ha⟩ := Option.bind_eq_some_iff.1 ha
  obtain ⟨x, hx, ha⟩ := Option.bind_eq_some_iff.1 ha
  obtain rfl := Option.some.inj ha
  exact .done (.silent (.releasing hx))

theorem answers_observe (h : Sound g.hand s) (halive : ∀ k, g.hand (.stream k) → s.isAlive k = true)
    {system stream : String} {name : Option String} {a : Answer}
    (ha : s.answerObserve system stream name = some a) : AnswersWith Silent g s a := by
  simp only [answerObserve] at ha
  obtain ⟨⟨y, z⟩, hz, ha⟩ := Option.bind_eq_some_iff.1 ha
  obtain ⟨i, hi, ha⟩ := Option.bind_eq_some_iff.1 ha
  obtain ⟨opened, hm⟩ := Moves.observerFor h (get?_of_system? hz) halive (h.outside.stream hi)
  cases name with
  | none =>
    obtain rfl := Option.some.inj ha
    exact .done (hm.trans (.letGoObserver _))
  | some name =>
    obtain rfl := Option.some.inj ha
    exact .done (hm.trans (.setNameOf (h.moves hm) (by decide)))

theorem answers_prune (h : Sound g.hand s) (halive : ∀ k, g.hand (.stream k) → s.isAlive k = true) {system : String}
    {a : Answer} (ha : s.answerPrune system = some a) : AnswersWith Silent g s a := by
  simp only [answerPrune] at ha
  obtain ⟨⟨y, z⟩, hz, ha⟩ := Option.bind_eq_some_iff.1 ha
  obtain rfl := Option.some.inj ha
  refine .done (.registry h (get?_of_system? hz) (fun i o ho => ?_) fun i o ho hlive hi => ?_)
  · simp only [Registry.prune, Registry.liveEntries, Table.get?_filter] at ho
    exact (Option.filter_eq_some_iff.1 ho).1
  · simp only [Registry.prune, Registry.liveEntries, Table.get?_filter]
    exact Option.filter_eq_some_iff.2 ⟨ho, by simp [Registry.isLiveEntry, hlive, halive i hi]⟩

/-- Destroying observers leaves the systems alone. -/
theorem destroy_withSystems (s : Session) (t : Table SystemId System) (o : ObserverId) :
    { s with systems := t }.destroy o = { s.destroy o with systems := t } := by
  unfold Session.destroy
  dsimp only
  split
  · rfl
  next x _ =>
    split
    · rfl
    · cases x.subscription <;> rfl

theorem destroyAll_withSystems (s : Session) (t : Table SystemId System) (os : List ObserverId) :
    os.foldl destroy { s with systems := t } = { os.foldl destroy s with systems := t } := by
  induction os generalizing s with
  | nil => rfl
  | cons o os ih => rw [List.foldl_cons, List.foldl_cons, destroy_withSystems, ih]

theorem Moves.destroyAll (os : List ObserverId) : Moves Silent (g, s) (g, os.foldl Session.destroy s) := by
  induction os generalizing s with
  | nil => exact .refl
  | cons o os ih => exact (Moves.destroy o).trans ih

theorem observers_close (s : Session) (c : Subscription) : (s.close c).store.isLive = s.store.isLive := by
  funext o
  simp only [Store.isLive, close_observers]

/-- A destroyed observer is not live, and no other observer becomes live. -/
theorem isLive_destroy (s : Session) (o p : ObserverId) :
    (s.destroy o).store.isLive p = (o != p && s.store.isLive p) := by
  unfold Session.destroy
  split
  next h =>
    by_cases hop : o = p
    · subst hop
      simp [Store.isLive, h]
    · simp [hop]
  next x h =>
    split
    next hd =>
      by_cases hop : o = p
      · subst hop
        simp [Store.isLive, h, hd]
      · simp [hop]
    · rw [observers_close]
      by_cases hop : o = p
      · subst hop
        simp [Store.isLive, Store.setObserver, Table.get?_insert, Observer.isDestroyed]
      · simp [Store.isLive, Store.setObserver, Table.get?_insert, hop]

theorem isLive_destroyAll (s : Session) (os : List ObserverId) {p : ObserverId}
    (h : (os.foldl destroy s).store.isLive p = true) : p ∉ os ∧ s.store.isLive p = true := by
  induction os generalizing s with
  | nil => exact ⟨by simp, h⟩
  | cons o os ih =>
    obtain ⟨hp, hlive⟩ := ih _ h
    rw [isLive_destroy, Bool.and_eq_true, bne_iff_ne] at hlive
    exact ⟨by simp [hp, Ne.symm hlive.1], hlive.2⟩

@[simp] theorem systems_destroy (s : Session) (o : ObserverId) : (s.destroy o).systems = s.systems := by
  unfold Session.destroy
  split
  · rfl
  · split
    · rfl
    · rw [close_systems]

theorem systems_destroyAll (s : Session) (os : List ObserverId) : (os.foldl destroy s).systems = s.systems := by
  induction os generalizing s with
  | nil => rfl
  | cons o os ih => rw [List.foldl_cons, ih, systems_destroy]

/-- A system that is shut down forgets its observers when all of them in reach are destroyed. -/
theorem Moves.shutdown (h : Sound g.hand s) (halive : ∀ k, g.hand (.stream k) → s.isAlive k = true) {y : SystemId}
    {z : System} (hz : s.systems.get? y = some z) : Moves Silent (g, s) (g, s.shutdown y z) := by
  unfold Session.shutdown
  dsimp only
  rw [destroyAll_withSystems]
  have hm := Moves.destroyAll (g := g) (s := s) (z.registry.liveEntries s.isAlive s.store).values
  refine hm.trans ?_
  have hsys := systems_destroyAll s (z.registry.liveEntries s.isAlive s.store).values
  rw [← hsys]
  refine .registry (r := { z.registry with entries := ∅ }) (h.moves hm) (by rw [hsys, hz]) (fun i o ho => by cases ho)
    fun i o ho hlive hi => ?_
  obtain ⟨hnot, hlive⟩ := isLive_destroyAll s _ hlive
  refine absurd (Table.mem_values.2 ⟨i, ?_⟩) hnot
  rw [Registry.liveEntries, Table.get?_filter]
  exact Option.filter_eq_some_iff.2 ⟨ho, by simp [Registry.isLiveEntry, hlive, halive i hi]⟩

theorem Moves.letGoRead (reads : List Read) : Moves Silent (g, s) (g, s.letGoRead reads) := by
  induction reads generalizing s with
  | nil => exact .refl
  | cons r rs ih =>
    cases r with
    | property => exact ih
    | stream i o =>
      simp only [Session.letGoRead]
      split
      · exact ih
      · exact (Moves.letGoObserver o).trans ih

theorem answers_evaluateAlone (h : Sound g.hand s) (halive : ∀ k, g.hand (.stream k) → s.isAlive k = true)
    {y : SystemId} {z : System} {place : Place} {scope : Scope} {host : Option Scope} {options : EvalOptions} {e : Expr}
    (hscope : Within g.hand (sharedInScope scope)) (hhost : ∀ x, host = some x → Within g.hand (sharedInScope x)) :
    AnswersWith Silent g s (s.evaluateAlone y z place scope host options e) := by
  unfold Session.evaluateAlone
  dsimp only
  split
  · exact answers_refl
  next e' _ =>
    obtain ⟨g', hm, -⟩ := Moves.evaluate h halive hscope hhost y place.flags
      (if options.tracks then .everything else .nothing) e'
    exact .done (hm.trans (.letGoRead _))

theorem answers_evaluate (h : Sound g.hand s) (halive : ∀ k, g.hand (.stream k) → s.isAlive k = true)
    {expression : HostExpr} {place : Place} {options : EvalOptions} {a : Answer}
    (ha : s.answerEvaluate expression place options = some a) : AnswersWith Silent g s a := by
  cases answer_evaluate ha with
  | refused => exact answers_refl
  | evaluated _ hscope hhost => exact answers_evaluateAlone h halive (h.outside.scope hscope) (h.outside.host hhost)

theorem concludes_answerAssign (h : Sound g.hand s) (halive : ∀ k, g.hand (.stream k) → s.isAlive k = true)
    {expression : HostExpr} {place : Place} {value : HostValue} {a : Answer}
    (ha : s.answerAssign expression place value = some a) : AnswerConcludes Silent g s a := by
  cases answer_assign ha with
  | refused => exact .still .refl
  | accepted hscope hhost hv hr =>
    obtain ⟨g', hm, hw⟩ := made_valueOf? value h hv
    have hmono : ∀ {xs : List Shared}, Within g.hand xs → Within g'.hand xs :=
      fun hx => hx.mono fun _ => hm.making.hand_mono
    exact .of_moves hm.making (concludes_assign (h.making hm) (isAlive_making h halive hm)
      (hmono (h.outside.scope hscope)) (fun x hx => hmono (h.outside.host hhost x hx)) hw hr)
  | failed hv =>
    obtain ⟨g', hm, -⟩ := made_valueOf? value h hv
    exact .still hm.making

theorem get?_of_binding? {name : String} {b : BindingId} {x : Binding} (h : s.binding? name = some (b, x)) :
    s.bindings.get? b = some x := by
  obtain ⟨c, hc, h⟩ := Option.bind_eq_some_iff.1 h
  obtain ⟨z, hz, h⟩ := Option.bind_eq_some_iff.1 h
  obtain ⟨rfl, rfl⟩ := Prod.mk.inj (Option.some.inj h)
  exact hz

theorem get?_of_record? {name : String} {r : RecordId} {x : Observations} (h : s.record? name = some (r, x)) :
    s.records.get? r = some x := by
  obtain ⟨c, hc, h⟩ := Option.bind_eq_some_iff.1 h
  obtain ⟨z, hz, h⟩ := Option.bind_eq_some_iff.1 h
  obtain ⟨rfl, rfl⟩ := Prod.mk.inj (Option.some.inj h)
  exact hz

theorem concludes_answerBind (h : Sound g.hand s) {binding scope : String} {host : Option String} {a : Answer}
    (ha : s.answerBind binding scope host = some a) :
    AnswerConcludes (s.Preparing (.bind binding scope host)) g s a := by
  have hprepares : ∀ {b x}, s.binding? binding = some (b, x) → ∀ f, Reading b f →
      s.Preparing (.bind binding scope host) f :=
    fun {b _} hb f => Or.imp_right fun hf => ⟨b, by simp [bindingOf?, hb], hf⟩
  cases answer_bind ha with
  | @bound b x k k' r hb hscope hhost hr =>
    have hbind := (concludes_bind h (get?_of_binding? hb) (y := { scope := k, host := k' }) (h.outside.scope hscope)
      (h.outside.host hhost)).mono (hprepares hb)
    rw [hr] at hbind
    exact hbind.keep b.ref
  | @failed b x k k' r e hb hscope hhost hr =>
    have hbind := (concludes_bind h (get?_of_binding? hb) (y := { scope := k, host := k' }) (h.outside.scope hscope)
      (h.outside.host hhost)).mono (hprepares hb)
    rwa [hr] at hbind

theorem concludes_answerUpdateSource (h : Sound g.hand s) (halive : ∀ k, g.hand (.stream k) → s.isAlive k = true)
    {binding : String} {value : HostValue} {a : Answer} (ha : s.answerUpdateSource binding value = some a) :
    AnswerConcludes Silent g s a := by
  cases answer_updateSource ha with
  | @accepted b x t v r hb hv hr =>
    obtain ⟨g', hm, hw⟩ := made_valueOf? value h hv
    have hb' : t.bindings.get? b = some x := by
      obtain ⟨objects, fresh, rfl, -⟩ := making_eq hm
      exact get?_of_binding? hb
    exact .of_moves hm.making
      ((concludes_updateSource (h.making hm) (isAlive_making h halive hm) hb' hw hr).keep b.ref)
  | failed hv =>
    obtain ⟨g', hm, -⟩ := made_valueOf? value h hv
    exact .still hm.making

theorem answers_record (h : Sound g.hand s) {record : String} {source : HostSource} {recorder : String} {a : Answer}
    (ha : s.answerRecord record source recorder = some a) : AnswersWith Silent g s a := by
  simp only [answerRecord] at ha
  obtain ⟨⟨i, r⟩, hr, ha⟩ := Option.bind_eq_some_iff.1 ha
  obtain ⟨x, hx, ha⟩ := Option.bind_eq_some_iff.1 ha
  obtain ⟨l, hl, ha⟩ := Option.bind_eq_some_iff.1 ha
  obtain rfl := Option.some.inj ha
  have hw := h.outside.records (get?_of_record? hr)
  have hx := h.outside.source hx
  have hobserve := (Moves.observeSource (s := s) hx r (.recorder l) (by simp)).mono fun _ => Hearing.silent
  exact .done (hobserve.trans (.insertRecord (within_observe hw hx)))

/-- A record gives up some of its entries. -/
theorem Moves.giveUp (h : Sound g.hand s) {i : RecordId} {r r' : Observations} (hr : s.records.get? i = some r)
    (hr' : ∀ e ∈ r'.entries, e ∈ r.entries) {es : List Observation} (hes : ∀ e ∈ es, e ∈ r.entries) :
    Moves Silent (g, s) (g, { s with records := s.records.insert i r' }.releaseAll es) := by
  have hw := within_record.1 (h.outside.records hr)
  have hm : Moves Silent (g, s) (g, { s with records := s.records.insert i r' }) :=
    .insertRecord (within_record.2 fun e he => hw e (hr' e he))
  exact hm.trans (.releaseAll fun e he => hw e (hes e he))

/-- A command that writes a property comes to its end with it. -/
theorem concludes_answer (h : Sound g.hand s) (halive : ∀ k, g.hand (.stream k) → s.isAlive k = true) {c : Command}
    (hc : c.writes = true) {a : Answer} (ha : s.answer? c = some a) : AnswerConcludes (s.Preparing c) g s a := by
  cases c with
  | set => exact (concludes_set h ha).preparing
  | assign => exact (concludes_answerAssign h halive ha).preparing
  | bind => exact concludes_answerBind h ha
  | updateSource => exact (concludes_answerUpdateSource h halive ha).preparing
  | _ => cases hc

/-- Each command is answered by moves. -/
theorem answers (h : Sound g.hand s) (halive : ∀ k, g.hand (.stream k) → s.isAlive k = true) {c : Command} {a : Answer}
    (ha : s.answer? c = some a) : AnswersWith (s.Allows c) g s a := by
  have looks : ∀ {reply : Reply}, some ({ session := s, reply } : Answer) = some a → AnswersWith (s.Allows c) g s a := by
    rintro reply hr
    obtain rfl := Option.some.inj hr
    exact answers_refl
  cases c with
  | makeObject => exact (answers_makeObject h ha).silent
  | makeSubject => exact (answers_makeSubject h ha).silent
  | makeCold => exact (answers_makeCold h ha).silent
  | makeScope => exact (answers_makeScope h ha).silent
  | makeSystem => exact (answers_makeSystem h ha).silent
  | makeRecorder => exact (answers_makeRecorder h ha).silent
  | makeCollection => exact (answers_makeCollection h ha).silent
  | makeRecord => exact (answers_makeRecord h ha).silent
  | makeFromAttribute => exact ((answer_makeFromAttribute ha).answers h).silent
  | makeBinding => exact ((answer_makeBinding ha).answers h).silent
  | addConverter => exact (answers_addConverter h ha).silent
  | drop => exact (answers_drop h ha).silent
  | get | has | keys =>
    obtain ⟨o, ho, ha⟩ := Option.bind_eq_some_iff.1 ha
    exact looks ha
  | set | assign | bind | updateSource => exact (concludes_answer h halive rfl ha).allowed h rfl
  | same =>
    obtain ⟨x, hx, ha⟩ := Option.bind_eq_some_iff.1 ha
    obtain ⟨y, hy, ha⟩ := Option.bind_eq_some_iff.1 ha
    exact looks ha
  | listen => exact (answers_listen h ha).silent
  | unlisten => exact (answers_unlisten h ha).silent
  | notify => exact (answers_notify h ha).silent
  | next => exact answers_next h ha
  | fail | complete =>
    obtain ⟨i, hi, ha⟩ := Option.bind_eq_some_iff.1 ha
    obtain rfl := Option.some.inj ha
    exact answers_terminate h hi rfl rfl
  | subscribe => exact (answers_subscribe h ha).silent
  | unsubscribe => exact (answers_unsubscribe ha).silent
  | observe => exact (answers_observe h halive ha).silent
  | peek =>
    obtain ⟨y, hy, ha⟩ := Option.bind_eq_some_iff.1 ha
    obtain ⟨i, hi, ha⟩ := Option.bind_eq_some_iff.1 ha
    exact looks ha
  | prune => exact (answers_prune h halive ha).silent
  | shutdown =>
    obtain ⟨⟨y, z⟩, hz, ha⟩ := Option.bind_eq_some_iff.1 ha
    obtain rfl := Option.some.inj ha
    exact (ReactsWith.done (.shutdown h halive (get?_of_system? hz))).silent
  | destroy =>
    obtain ⟨o, ho, ha⟩ := Option.bind_eq_some_iff.1 ha
    obtain rfl := Option.some.inj ha
    exact (ReactsWith.done (.destroy o)).silent
  | setValue =>
    obtain ⟨o, ho, ha⟩ := Option.bind_eq_some_iff.1 ha
    exact looks ha
  | resolve =>
    obtain ⟨x, hx, ha⟩ := Option.bind_eq_some_iff.1 ha
    obtain ⟨y, hy, ha⟩ := Option.bind_eq_some_iff.1 ha
    exact looks ha
  | evaluate => exact (answers_evaluate h halive ha).silent
  | unbind =>
    obtain ⟨⟨b, x⟩, hb, ha⟩ := Option.bind_eq_some_iff.1 ha
    obtain rfl := Option.some.inj ha
    exact (ReactsWith.done (.unbind h b)).silent
  | nextVersion =>
    obtain ⟨⟨i, r⟩, hr, ha⟩ := Option.bind_eq_some_iff.1 ha
    obtain rfl := Option.some.inj ha
    have hw : Within g.hand (sharedInRecord r) := h.outside.records (get?_of_record? hr)
    exact (ReactsWith.done (Moves.insertRecord (x := r.nextRound) hw)).silent
  | record => exact (answers_record h ha).silent
  | clearStale =>
    obtain ⟨⟨i, r⟩, hr, ha⟩ := Option.bind_eq_some_iff.1 ha
    obtain rfl := Option.some.inj ha
    exact (ReactsWith.done (.giveUp h (get?_of_record? hr) (fun e he => (List.mem_filter.1 he).1)
      fun e he => (List.mem_filter.1 he).1)).silent
  | clearRecord =>
    obtain ⟨⟨i, r⟩, hr, ha⟩ := Option.bind_eq_some_iff.1 ha
    obtain rfl := Option.some.inj ha
    exact (ReactsWith.done (.giveUp h (get?_of_record? hr) (fun e he => by cases he) fun _ => id)).silent
  | describe =>
    obtain ⟨t, ht, ha⟩ := Option.bind_eq_some_iff.1 ha
    exact looks ha

/-- Carrying out a command is a sequence of moves. -/
theorem answers_execute (h : Sound g.hand s) (halive : ∀ k, g.hand (.stream k) → s.isAlive k = true) (c : Command) :
    AnswersWith (s.Allows c) g s (s.execute c) := by
  unfold Session.execute
  cases ha : s.answer? c with
  | none => exact answers_refl
  | some a => exact answers h halive ha

theorem concludes_execute (h : Sound g.hand s) (halive : ∀ k, g.hand (.stream k) → s.isAlive k = true) {c : Command}
    (hc : c.writes = true) : AnswerConcludes (s.Preparing c) g s (s.execute c) := by
  unfold Session.execute
  cases ha : s.answer? c with
  | none => exact .still .refl
  | some a => exact concludes_answer h halive hc ha

end Session

end DataBinding
