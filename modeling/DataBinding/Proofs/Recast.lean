import DataBinding.Session.Run

/-!
# What does not look at systems

Only an evaluation and the commands that name a system look at a session's systems, and nothing looks at the replies
that are to be written down or were. `Session.recast` exchanges both. Every other operation does the same before and
after it (`recast_letGo`, `recast_write`, `recast_receive` and so on), so it leaves the systems as they are.
-/

namespace DataBinding

/-- The task with another reply, if it is to write one down. -/
def Task.recast (ρ : Reply → Reply) : Task → Task
  | .report label reply => .report label (ρ reply)
  | t => t

/-- The entry with another reply, if it has one. -/
def LogEntry.recast (ρ : Reply → Reply) : LogEntry → LogEntry
  | .action label reply => .action label (ρ reply)
  | e => e

/-- The session with other systems and other replies. -/
def Session.recast (s : Session) (ρ : Reply → Reply) (X : Table SystemId System) : Session :=
  { s with
    systems := X
    pending := s.pending.map (Task.recast ρ)
    log := s.log.map (LogEntry.recast ρ) }

def Reaction.recast (r : Reaction) (ρ : Reply → Reply) (X : Table SystemId System) : Reaction where
  session := r.session.recast ρ X
  tasks := r.tasks.map (Task.recast ρ)

def Answer.recast (a : Answer) (ρ : Reply → Reply) (X : Table SystemId System) : Answer where
  session := a.session.recast ρ X
  reply := a.reply
  tasks := a.tasks.map (Task.recast ρ)

/-- Whether the command names a system or evaluates with one. -/
def Command.looksAtSystems : Command → Bool
  | makeSystem .. | makeFromAttribute .. | makeBinding .. | addConverter .. | observe .. | peek .. | prune ..
  | shutdown .. | evaluate .. | assign .. | bind .. | updateSource .. => true
  | describe what _ => what = .system
  | _ => false

namespace Session

variable {s : Session} {ρ : Reply → Reply} {X : Table SystemId System}

/-! ### Looking things up -/

@[simp] theorem store_recast : (s.recast ρ X).store = s.store := rfl

@[simp] theorem systems_recast : (s.recast ρ X).systems = X := rfl

@[simp] theorem bindings_recast : (s.recast ρ X).bindings = s.bindings := rfl

@[simp] theorem recorders_recast : (s.recast ρ X).recorders = s.recorders := rfl

@[simp] theorem handlers_recast : (s.recast ρ X).handlers = s.handlers := rfl

@[simp] theorem records_recast : (s.recast ρ X).records = s.records := rfl

@[simp] theorem names_recast : (s.recast ρ X).names = s.names := rfl

theorem recast_id : s.recast id X = { s with systems := X } := by
  have htask : Task.recast id = id := by
    funext t
    cases t <;> rfl
  have hentry : LogEntry.recast id = id := by
    funext e
    cases e <;> rfl
  simp [recast, htask, hentry]

theorem recast_self : s.recast id s.systems = s := recast_id

/-- An operation that does the same whatever the systems are leaves them as they are. -/
theorem systems_of_recast {f : Session → Session}
    (hf : ∀ u (ρ : Reply → Reply) (X : Table SystemId System), f (u.recast ρ X) = (f u).recast ρ X) (s : Session) :
    (f s).systems = s.systems := by
  have hself := hf s id s.systems
  rw [recast_self] at hself
  rw [hself, systems_recast]

@[simp] theorem recast_note (e : LogEntry) :
    (s.recast ρ X).note (e.recast ρ) = (s.note e).recast ρ X := by
  simp [note, recast]

@[simp] theorem isKept_recast (r : Ref) : (s.recast ρ X).isKept r = s.isKept r := by
  unfold isKept recast
  dsimp only
  rw [List.any_map]
  congr 1
  funext t
  cases t <;> rfl

@[simp] theorem isHeld_recast (r : Ref) : (s.recast ρ X).isHeld r = s.isHeld r := by
  unfold isHeld
  rw [isKept_recast]
  rfl

@[simp] theorem held_recast : (s.recast ρ X).held = s.held := by
  have htasks : (s.pending.map (Task.recast ρ)).flatMap sharedInTask = s.pending.flatMap sharedInTask := by
    rw [List.flatMap_map]
    congr 1
    funext t
    cases t <;> rfl
  have houtside : (s.recast ρ X).heldFromOutside = s.heldFromOutside := by
    unfold heldFromOutside
    exact congrArg (_ ++ ·) htasks
  unfold held
  rw [houtside]
  rfl

@[simp] theorem isAlive_recast : (s.recast ρ X).isAlive = s.isAlive := by
  funext i
  unfold isAlive
  rw [held_recast]

/-! ### Holding and releasing -/

@[simp] theorem recast_close (c : Subscription) : (s.recast ρ X).close c = (s.close c).recast ρ X := by
  cases c with
  | closed => rfl
  | subject i token => rfl
  | cold label => exact recast_note (.teardown label)

@[simp] theorem recast_destroy (o : ObserverId) : (s.recast ρ X).destroy o = (s.destroy o).recast ρ X := by
  unfold destroy
  rw [store_recast]
  split
  · rfl
  next x _ =>
    split
    · rfl
    · exact recast_close (s := { s with store := _ }) x.subscription

@[simp] theorem recast_unlisten (x : Source) (token : Nat) :
    (s.recast ρ X).unlisten x token = (s.unlisten x token).recast ρ X := by
  cases x with
  | observer o =>
    have hlast : ∀ (b : Bool) (t : Session), (if b then (t.recast ρ X).destroy o else t.recast ρ X) =
        (if b then t.destroy o else t).recast ρ X := by
      intro b t
      cases b with
      | false => rfl
      | true => exact recast_destroy o
    exact hlast _ { s with store := s.store.unlisten token (.observer o) }
  | property o name => rfl
  | collection c => rfl

@[simp] theorem recast_letGoObserver (o : ObserverId) :
    (s.recast ρ X).letGoObserver o = (s.letGoObserver o).recast ρ X := by
  unfold letGoObserver
  rw [isHeld_recast, store_recast]
  split
  · rfl
  · split
    · rfl
    next x _ => exact recast_close (s := { s with store := _ }) x.subscription

@[simp] theorem recast_release (e : Observation) : (s.recast ρ X).release e = (s.release e).recast ρ X := by
  unfold release
  rw [recast_unlisten]
  dsimp only
  split
  · exact recast_letGoObserver _
  · rfl

@[simp] theorem recast_releaseAll (es : List Observation) :
    (s.recast ρ X).releaseAll es = (s.releaseAll es).recast ρ X := by
  unfold releaseAll
  induction es generalizing s with
  | nil => rfl
  | cons e es ih => rw [List.foldl_cons, List.foldl_cons, recast_release, ih]

@[simp] theorem recast_letGo (r : Ref) : (s.recast ρ X).letGo r = (s.letGo r).recast ρ X := by
  unfold letGo
  rw [isHeld_recast]
  split
  · rfl
  · cases r.thing with
    | observer => exact recast_letGoObserver _
    | recorder => rfl
    | binding =>
      rw [bindings_recast]
      dsimp only
      split
      · rfl
      next b _ => exact recast_releaseAll (s := { s with bindings := _ }) b.observations.entries
    | record =>
      rw [records_recast]
      dsimp only
      split
      · rfl
      next x _ => exact recast_releaseAll (s := { s with records := _ }) x.entries
    | sink =>
      rw [handlers_recast]
      dsimp only
      split
      · rfl
      next k _ => exact recast_close (s := { s with handlers := _ }) k.subscription
    | object | stream | scope | system | collection => rfl

@[simp] theorem recast_setName (name : String) (r : Ref) :
    (s.recast ρ X).setName name r = (s.setName name r).recast ρ X := by
  unfold setName
  rw [names_recast]
  dsimp only
  split
  · rfl
  next n _ => exact recast_letGo (s := { s with names := _ }) ⟨r.thing, n⟩

/-! ### Changes -/

theorem recast_ite (b : Bool) (r r' : Reaction) :
    (if b then r.recast ρ X else r'.recast ρ X) = (if b then r else r').recast ρ X := by
  cases b <;> rfl

@[simp] theorem recast_write (o : ObjectId) (name : String) (v : Value) :
    (s.recast ρ X).write o name v = (s.write o name v).recast ρ X :=
  recast_ite ((s.store.object o).changes name v)
    (({ s with store := s.store.setObject o ((s.store.object o).put name v) } : Session).notify (.property o name) v
      ((s.store.object o).get name))
    { session := { s with store := s.store.setObject o ((s.store.object o).put name v) } }

@[simp] theorem recast_modifyBinding (b : BindingId) (f : Binding → Binding) :
    (s.recast ρ X).modifyBinding b f = (s.modifyBinding b f).recast ρ X := rfl

@[simp] theorem recast_observe (b : BindingId) (reads : List Read) :
    (s.recast ρ X).observe b reads = (s.observe b reads).recast ρ X := by
  unfold observe
  induction reads generalizing s with
  | nil => rfl
  | cons r rs ih =>
    rw [List.foldl_cons, List.foldl_cons, bindings_recast]
    cases s.bindings.get? b with
    | none => exact ih
    | some x => exact ih (s := { s with store := _, bindings := _ })

@[simp] theorem recast_clearStale (b : BindingId) : (s.recast ρ X).clearStale b = (s.clearStale b).recast ρ X := by
  unfold clearStale
  rw [bindings_recast]
  split
  · rfl
  · rw [recast_modifyBinding, recast_releaseAll]

@[simp] theorem recast_clearObservations (b : BindingId) :
    (s.recast ρ X).clearObservations b = (s.clearObservations b).recast ρ X := by
  unfold clearObservations
  rw [bindings_recast]
  split
  · rfl
  · rw [recast_modifyBinding, recast_releaseAll]

@[simp] theorem recast_writeTarget (b : BindingId) (x : Binding) (v : Value) :
    (s.recast ρ X).writeTarget b x v = (s.writeTarget b x v).recast ρ X := by
  unfold writeTarget
  rw [recast_modifyBinding, recast_write]

@[simp] theorem recast_unbind (b : BindingId) : (s.recast ρ X).unbind b = (s.unbind b).recast ρ X := by
  unfold unbind
  rw [bindings_recast]
  split
  · rfl
  · split
    · rw [recast_modifyBinding, recast_clearObservations]
    · rfl

@[simp] theorem recast_noteEvent (label : String) (e : StreamEvent) :
    (s.recast ρ X).noteEvent label e = (s.noteEvent label e).recast ρ X := by
  cases e with
  | next v => exact recast_note (.next label (s.view v))
  | error message => exact recast_note (.error label message)
  | complete => exact recast_note (.complete label)

@[simp] theorem recast_tell_recorder (i : RecorderId) (new previous : Value) :
    (s.recast ρ X).tell new previous (.recorder i) = (s.tell new previous (.recorder i)).recast ρ X := by
  simp only [tell]
  rw [recorders_recast]
  split
  · rfl
  next x _ =>
    have hnote : (s.recast ρ X).note (.change x.label ((s.recast ρ X).view new) ((s.recast ρ X).view previous)) =
        (s.note (.change x.label (s.view new) (s.view previous))).recast ρ X :=
      recast_note (.change x.label (s.view new) (s.view previous))
    rw [hnote]
    split <;> rfl

@[simp] theorem recast_receive (e : StreamEvent) (k : Sink) :
    (s.recast ρ X).receive e k = (s.receive e k).recast ρ X := by
  cases k with
  | observer o =>
    simp only [receive]
    rw [store_recast]
    split
    · rfl
    · split <;> rfl
  | handler k =>
    simp only [receive]
    rw [handlers_recast]
    split
    · rfl
    · rw [recast_noteEvent]
      split <;> rfl

@[simp] theorem recast_emit (i : StreamId) (v : Value) : (s.recast ρ X).emit i v = (s.emit i v).recast ρ X := by
  unfold emit
  rw [store_recast]
  split <;> rfl

@[simp] theorem recast_terminate (i : StreamId) (e : StreamEvent) :
    (s.recast ρ X).terminate i e = (s.terminate i e).recast ρ X := by
  unfold terminate
  rw [store_recast]
  split <;> rfl

/-! ### What the host means -/

/-- A result that comes with a session. -/
def recastFst {α : Type} (ρ : Reply → Reply) (X : Table SystemId System) (r : Session × α) : Session × α :=
  (r.1.recast ρ X, r.2)

mutual

theorem recast_valueOf? : ∀ (u : HostValue) (s : Session),
    (s.recast ρ X).valueOf? u = (s.valueOf? u).map (recastFst ρ X)
  | .undefined, _ | .null, _ | .bool _, _ | .int _, _ | .float _, _ | .text _, _ | .json _, _ => by
    simp only [valueOf?]
    rfl
  | .object name, s => by
    show ((s.named? .object name).map fun o => _) = _
    simp only [valueOf?]
    cases s.named? .object name <;> rfl
  | .stream name, s => by
    show ((s.named? .stream name).map fun i => _) = _
    simp only [valueOf?]
    cases s.named? .stream name <;> rfl
  | .array items, s => by
    simp only [valueOf?]
    rw [recast_valuesOf? items s]
    cases s.valuesOf? items <;> rfl

theorem recast_valuesOf? : ∀ (us : List HostValue) (s : Session),
    (s.recast ρ X).valuesOf? us = (s.valuesOf? us).map (recastFst ρ X)
  | [], _ => by
    simp only [valuesOf?]
    rfl
  | u :: us, s => by
    simp only [valuesOf?]
    rw [recast_valueOf? u s]
    cases s.valueOf? u with
    | none => rfl
    | some r =>
      show ((r.1.recast ρ X).valuesOf? us).bind _ = ((r.1.valuesOf? us).bind _).map _
      rw [recast_valuesOf? us r.1]
      cases r.1.valuesOf? us <;> rfl

end

theorem recast_propertiesOf? (ps : List (String × HostValue)) :
    (s.recast ρ X).propertiesOf? ps = (s.propertiesOf? ps).map (recastFst ρ X) := by
  induction ps generalizing s with
  | nil => rfl
  | cons p ps ih =>
    simp only [propertiesOf?]
    rw [recast_valueOf?]
    cases s.valueOf? p.2 with
    | none => rfl
    | some r =>
      show ((r.1.recast ρ X).propertiesOf? ps).bind _ = ((r.1.propertiesOf? ps).bind _).map _
      rw [ih]
      cases r.1.propertiesOf? ps <;> rfl

theorem recast_eventOf? (d : HostEvent) : (s.recast ρ X).eventOf? d = (s.eventOf? d).map (recastFst ρ X) := by
  cases d with
  | next v =>
    simp only [eventOf?]
    rw [recast_valueOf?]
    cases s.valueOf? v <;> rfl
  | error message => rfl
  | complete => rfl

theorem recast_eventsOf? (ds : List HostEvent) :
    (s.recast ρ X).eventsOf? ds = (s.eventsOf? ds).map (recastFst ρ X) := by
  induction ds generalizing s with
  | nil => rfl
  | cons d ds ih =>
    simp only [eventsOf?]
    rw [recast_eventOf?]
    cases s.eventOf? d with
    | none => rfl
    | some r =>
      show ((r.1.recast ρ X).eventsOf? ds).bind _ = ((r.1.eventsOf? ds).bind _).map _
      rw [ih]
      cases r.1.eventsOf? ds <;> rfl

theorem recast_subjectOf? (v? : Option HostValue) :
    (s.recast ρ X).subjectOf? v? = (s.subjectOf? v?).map (recastFst ρ X) := by
  cases v? with
  | none => rfl
  | some v =>
    simp only [subjectOf?]
    rw [recast_valueOf?]
    cases s.valueOf? v <;> rfl

theorem recast_override? (name : Option String) :
    (s.recast ρ X).override? name = (s.override? name).map (recastFst ρ X) := by
  cases name with
  | none => rfl
  | some name =>
    show ((s.named? .object name).map fun o => _) = _
    simp only [override?]
    cases s.named? .object name <;> rfl

/-! ### Commands -/

section

variable {α : Type}

theorem recast_look {o o' : Option α} {f f' : α → Option Answer} (ho : o' = o)
    (h : ∀ a, f' a = (f a).map (·.recast ρ X)) : (o' >>= f') = (o >>= f).map (·.recast ρ X) := by
  subst ho
  cases o' with
  | none => rfl
  | some a => exact h a

theorem recast_after {o : Option (Session × α)} {o' : Option (Session × α)} {f f' : Session × α → Option Answer}
    (ho : o' = o.map (recastFst ρ X)) (h : ∀ t a, f' (t.recast ρ X, a) = (f (t, a)).map (·.recast ρ X)) :
    (o' >>= f') = (o >>= f).map (·.recast ρ X) := by
  subst ho
  cases o with
  | none => rfl
  | some r => exact h r.1 r.2

theorem recast_answered {t t' : Session} {reply : Reply} (tasks : List Task) (h : t' = t.recast ρ X) :
    some ({ session := t', reply, tasks := tasks.map (Task.recast ρ) } : Answer) =
      (some ({ session := t, reply, tasks } : Answer)).map (·.recast ρ X) := by
  subst h
  rfl

end

@[simp] theorem recast_addBinding (name : String) (b : Binding) :
    (s.recast ρ X).addBinding name b = (s.addBinding name b).recast ρ X := by
  let made : Session := { s.fresh.1 with bindings := s.fresh.1.bindings.insert ⟨s.fresh.2⟩ b }
  have hname : (made.recast ρ X).setName name ⟨.binding, s.fresh.2⟩ =
      (made.setName name ⟨.binding, s.fresh.2⟩).recast ρ X := recast_setName name _
  exact congrArg (fun t : Session => ({ session := t, reply := t.bindingReply b } : Answer)) hname

@[simp] theorem recast_letGoRead (reads : List Read) :
    (s.recast ρ X).letGoRead reads = (s.letGoRead reads).recast ρ X := by
  induction reads generalizing s with
  | nil => rfl
  | cons r rs ih =>
    cases r with
    | property o name => exact ih
    | stream i o =>
      simp only [letGoRead]
      split
      · exact ih
      · rw [recast_letGoObserver, ih]

/-- A command that does not look at systems is answered in the same way whatever they are. -/
theorem recast_answer? {c : Command} (hc : c.looksAtSystems = false) :
    (s.recast ρ X).answer? c = (s.answer? c).map (·.recast ρ X) := by
  cases c with
  | makeSystem | makeFromAttribute | makeBinding | addConverter | observe | peek | prune | shutdown | evaluate | assign
  | bind | updateSource => cases hc
  | makeObject name properties =>
    exact recast_after (recast_propertiesOf? properties) fun t ps =>
      recast_answered [] (recast_setName (s := { t with store := _ }) name _)
  | makeSubject name initial =>
    exact recast_after (recast_subjectOf? initial) fun t x =>
      recast_answered [] (recast_setName (s := { t with store := _ }) name _)
  | makeCold name events =>
    exact recast_after (recast_eventsOf? events) fun t es =>
      recast_answered [] (recast_setName (s := { t with store := _ }) name _)
  | makeScope name context parent override =>
    exact recast_look rfl fun o => recast_look rfl fun outer => recast_after (recast_override? override) fun t p =>
      recast_answered [] (recast_setName (s := { t.fresh.1 with scopes := _ }) name _)
  | makeRecorder name actions limit =>
    exact recast_answered [] (recast_setName (s := { s.fresh.1 with recorders := _ }) name _)
  | makeCollection name =>
    exact recast_answered [] (recast_setName (s := { s.fresh.1 with store := _ }) name _)
  | makeRecord name =>
    exact recast_answered [] (recast_setName (s := { s.fresh.1 with records := _ }) name _)
  | drop what name =>
    simp only [answer?, answerDrop]
    rw [names_recast]
    split
    · rfl
    · exact recast_answered [] (recast_letGo (s := { s with names := _ }) _)
  | get object name => exact recast_look rfl fun o => rfl
  | has object name => exact recast_look rfl fun o => rfl
  | keys object => exact recast_look rfl fun o => rfl
  | set object name value =>
    exact recast_look rfl fun o => recast_after (recast_valueOf? value s) fun t v =>
      congrArg (fun r : Reaction => some (r.answer _)) (recast_write o name v)
  | same a b => exact recast_look rfl fun o => recast_look rfl fun p => rfl
  | listen source recorder token => exact recast_look rfl fun x => recast_look rfl fun r => rfl
  | unlisten source token =>
    exact recast_look rfl fun x => recast_look rfl fun t => recast_answered [] (recast_unlisten x t)
  | notify collection new previous =>
    exact recast_look rfl fun c => recast_after (recast_valueOf? new s) fun t v =>
      recast_after (recast_valueOf? previous t) fun u w => rfl
  | next stream value =>
    exact recast_look rfl fun i => recast_after (recast_valueOf? value s) fun t v =>
      congrArg (fun r : Reaction => some (r.answer .done)) (recast_emit i v)
  | fail stream message =>
    exact recast_look rfl fun i => congrArg (fun r : Reaction => some (r.answer .done)) (recast_terminate i _)
  | complete stream =>
    exact recast_look rfl fun i => congrArg (fun r : Reaction => some (r.answer .done)) (recast_terminate i _)
  | subscribe name stream actions limit =>
    refine recast_look rfl fun i => congrArg some (congrArg (Answer.mk _ _) ?_)
    simp [Function.comp_def, Task.recast]
  | unsubscribe sink =>
    exact recast_look rfl fun k => recast_look rfl fun x =>
      recast_answered [] (recast_close (s := { s with handlers := _ }) x.subscription)
  | destroy observer => exact recast_look rfl fun o => recast_answered [] (recast_destroy o)
  | setValue observer => exact recast_look rfl fun o => rfl
  | resolve scope host name ancestor => exact recast_look rfl fun x => recast_look rfl fun y => rfl
  | unbind binding => exact recast_look rfl fun b => recast_answered [] (recast_unbind b.1)
  | nextVersion record => exact recast_look rfl fun r => rfl
  | record record source recorder =>
    exact recast_look rfl fun r => recast_look rfl fun x => recast_look rfl fun l => rfl
  | clearStale record =>
    exact recast_look rfl fun r => recast_answered [] (recast_releaseAll (s := { s with records := _ }) _)
  | clearRecord record =>
    exact recast_look rfl fun r => recast_answered [] (recast_releaseAll (s := { s with records := _ }) _)
  | describe what name =>
    refine recast_look ?_ fun t => rfl
    cases what with
    | system => cases hc
    | stream | sink | collection | record => rfl

end Session

end DataBinding
