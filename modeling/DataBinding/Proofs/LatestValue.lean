import DataBinding.Proofs.Bystanders
import DataBinding.Proofs.Deliveries
import DataBinding.Proofs.OneObserver

/-!
# The value that an observer is left with

A subject that emits while an earlier value is still being delivered is told in full first, and the earlier delivery
then goes on. So once the work is done, an observer that is still active has the value that was delivered to it last:
of those that were due when the subject emitted for the last time, the one lowest in the stack, and the emitted value
only if nothing was due.
-/

namespace DataBinding

/-- The latest value of a subject. -/
def Stream.latest? : Stream → Option Value
  | subject x => x.latest
  | cold .. => none

/-- The value of an observer that is active. -/
def Observer.activeValue? (x : Observer) : Option Value := if x.isActive then some x.value else none

/-- An active observer takes each value, and an event that ends the stream ends it too. -/
theorem Observer.activeValue?_receive (x : Observer) (e : StreamEvent) :
    (x.receive e).1.activeValue? = x.activeValue?.bind fun _ =>
      match e with
      | .next v => some v
      | _ => none := by
  obtain ⟨u, ls, c, st⟩ := x
  cases e <;> cases st <;> rfl

namespace Session

variable {g : Ghost} {s s' : Session} {i j : StreamId} {o p : ObserverId} {v w : Value}

/-! ### What moves leave alone -/

/-- What an active observer holds. -/
def activeValue? (s : Session) (o : ObserverId) : Option Value :=
  (s.store.observers.get? o).bind Observer.activeValue?

theorem activeValue?_setObserver (s : Session) (o : ObserverId) (x : Observer) (p : ObserverId) :
    ({ s with store := s.store.setObserver o x } : Session).activeValue? p =
      if o = p then x.activeValue? else s.activeValue? p := by
  simp only [activeValue?, Store.setObserver, Table.get?_insert]
  split <;> rfl

theorem activeValue?_close (s : Session) (c : Subscription) (o : ObserverId) :
    (s.close c).activeValue? o = s.activeValue? o := by
  simp only [activeValue?, close_observers]

/-- An observer that stands by and is active was so before, with the same value. -/
theorem activeValue?_of_stoodBy (h : ∀ x, s'.store.observers.get? o = some x → s.StoodBy o x)
    (hv : s'.activeValue? o = some v) : s.activeValue? o = some v := by
  obtain ⟨x, hx, hv⟩ := Option.bind_eq_some_iff.1 hv
  obtain ⟨z, hz, hcore | ⟨-, hdead⟩⟩ := h x hx
  · have hsame : x.core.activeValue? = z.core.activeValue? := by rw [hcore]
    rw [activeValue?, hz, Option.bind_some]
    exact hsame.symm.trans hv
  · have hstate : x.state = .destroyed := of_decide_eq_true hdead
    simp [Observer.activeValue?, Observer.isActive, hstate] at hv

theorem Move.activeValue? {e : Effect} {a b : Ghost × Session} (hm : Move e a b) (ho : o.number < a.2.store.fresh)
    (he : ∀ d, e ≠ .receives o d) (h : b.2.activeValue? o = some v) : a.2.activeValue? o = some v :=
  activeValue?_of_stoodBy (fun _ hx => hm.observer_core ho he hx) h

theorem Moves.activeValue? {E : Effect → Prop} {a b : Ghost × Session} (hm : Moves E a b)
    (ho : o.number < a.2.store.fresh) (hE : ∀ d, ¬E (.receives o d)) (h : b.2.activeValue? o = some v) :
    a.2.activeValue? o = some v :=
  activeValue?_of_stoodBy (fun _ hx => Moves.observer_core hm ho hE hx) h

/-- The latest value of a stream that is a subject. -/
def latest? (s : Session) (i : StreamId) : Option Value := (s.store.streams.get? i).bind Stream.latest?

theorem latest?_of_coreOf (h : s'.coreOf i = s.coreOf i) : s'.latest? i = s.latest? i := by
  have hcore : ∀ t : Session, t.latest? i = (t.coreOf i).bind Stream.latest? := by
    intro t
    unfold latest? coreOf
    cases t.store.streams.get? i with
    | none => rfl
    | some x => cases x <;> rfl
  rw [hcore, hcore, h]

theorem latest?_terminate (x : Subject) (e : StreamEvent) : (x.terminate e).1.latest = x.latest := by
  unfold Subject.terminate
  split <;> rfl

theorem latest?_setStream (s : Session) (i : StreamId) (x : Stream) (j : StreamId) :
    ({ s with store := s.store.setStream i x } : Session).latest? j = if i = j then x.latest? else s.latest? j := by
  simp only [latest?, Store.setStream, Table.get?_insert]
  split <;> rfl

/-- Only an emission changes the latest value of a subject. -/
theorem Move.latest? {e : Effect} {a b : Ghost × Session} (hm : Move e a b) (hi : i.number < a.2.store.fresh)
    (he : ∀ v, e ≠ .emits i v) : b.2.latest? i = a.2.latest? i := by
  by_cases hends : ∃ d, e = .ends i d
  · obtain ⟨d, rfl⟩ := hends
    cases hm with
    | ending hs =>
      rw [latest?_setStream, if_pos rfl]
      simp [Session.latest?, hs, Stream.latest?, latest?_terminate]
  · exact latest?_of_coreOf (hm.coreOf hi he fun d hd => hends ⟨d, hd⟩)

theorem Moves.latest? {E : Effect → Prop} {a b : Ghost × Session} (hm : Moves E a b) (hi : i.number < a.2.store.fresh)
    (hE : ∀ v, ¬E (.emits i v)) : b.2.latest? i = a.2.latest? i := by
  induction hm with
  | refl => rfl
  | tail hm hlast ih =>
    obtain ⟨e, he, hlast⟩ := hlast
    have hf := Nat.lt_of_lt_of_le hi (Moves.fresh_le hm)
    rw [hlast.latest? hf (fun v hv => hE v (hv ▸ he)), ih]

/-! ### Emissions -/

/-- A command that emits a value delivers it to all sinks of the subject. -/
theorem execute_of_emission? (hsound : Sound g.hand s) {c : Command} (h : s.emission? c = some (i, v)) :
    ∃ x, s.store.streams.get? i = some (.subject x) ∧ x.isClosed = false ∧
      (s.execute c).session.store.streams = s.store.streams.insert i (.subject (x.emit v).1) ∧
      (s.execute c).tasks = [.deliver i (.next v) (x.sinks.map (·.2))] := by
  cases c with
  | next stream value =>
    obtain ⟨j, hj, h⟩ := Option.bind_eq_some_iff.1 h
    obtain ⟨⟨t, w⟩, hw, h⟩ := Option.bind_eq_some_iff.1 h
    dsimp only at h
    split at h
    next hopen =>
      obtain ⟨rfl, rfl⟩ := Prod.mk.inj (Option.some.inj h)
      obtain ⟨g', hm, -⟩ := made_valueOf? value hsound hw
      obtain ⟨objects, fresh, rfl, -⟩ := making_eq hm
      unfold isOpen at hopen
      split at hopen
      next x hx =>
        have hclosed : x.isClosed = false := by simpa using hopen
        refine ⟨x, hx, hclosed, ?_, ?_⟩
        · simp [execute, answer?, answerNext, hj, hw, emit, hx, Reaction.answer, Store.setStream]
        · simp [execute, answer?, answerNext, hj, hw, emit, hx, Reaction.answer, Subject.emit, hclosed]
      · cases hopen
    · cases h
  | _ => cases h

/-- A subject that has ended delivers to nobody. -/
theorem tasks_of_emission?_none (hsound : Sound g.hand s) {stream : String} {value : HostValue}
    (h : s.emission? (.next stream value) = none) :
    ∀ t ∈ (s.execute (.next stream value)).tasks, ∃ j e, t = .deliver j e [] := by
  unfold execute
  cases ha : s.answer? (.next stream value) with
  | none => simp
  | some a =>
    obtain ⟨j, hj, ha⟩ := Option.bind_eq_some_iff.1 ha
    obtain ⟨⟨t, w⟩, hw, ha⟩ := Option.bind_eq_some_iff.1 ha
    obtain rfl := Option.some.inj ha
    obtain ⟨g', hm, -⟩ := made_valueOf? value hsound hw
    obtain ⟨objects, fresh, rfl, -⟩ := making_eq hm
    have hclosed : s.isOpen j = false := by
      cases hopen : s.isOpen j with
      | false => rfl
      | true => simp [emission?, hj, hw, hopen] at h
    simp only [Option.getD_some, Reaction.answer, emit]
    split
    next x hx =>
      have hx : s.store.streams.get? j = some (.subject x) := hx
      have hc : x.isClosed = true := by simpa [isOpen, hx] using hclosed
      simp [Subject.emit, hc]
    · simp

/-- A command that emits nothing delivers nothing. -/
theorem due_of_emission?_none (hsound : Sound g.hand s) {c : Command} (h : s.emission? c = none) :
    due o (s.execute c).tasks = [] := by
  cases c with
  | next stream value =>
    refine List.flatMap_eq_nil_iff.2 fun t ht => ?_
    obtain ⟨j, e, rfl⟩ := tasks_of_emission?_none hsound h t ht
    cases e <;> rfl
  | _ => exact due_execute (by simp) o

/-- What a command delivers to an observer is what it emits from the stream of the observer. -/
theorem due_execute_of_placed (hsound : Sound g.hand s) (hw : Wired s) (hp : Placed s i o) {c : Command}
    (h : ∀ v, s.emission? c ≠ some (i, v)) : due o (s.execute c).tasks = [] := by
  cases he : s.emission? c with
  | none => exact due_of_emission?_none hsound he
  | some e =>
    obtain ⟨j, w⟩ := e
    obtain ⟨x, hx, -, -, htasks⟩ := execute_of_emission? hsound he
    have hnot : ∀ k ∈ x.sinks.map (·.2), k ≠ .observer o := by
      rintro k hk rfl
      obtain ⟨⟨t, k⟩, ht, rfl⟩ := List.mem_map.1 hk
      obtain rfl := hp.only (hw.owned (rollOf_of_get? hx) ht)
      exact h w he
    rw [htasks]
    simpa using hnot

/-! ### The work under way -/

theorem due_left {t : Task} (hd : ∀ j e more, t ≠ .deliver j e (.observer o :: more)) : due o t.left = t.due o := by
  cases t with
  | deliver j e ks =>
    cases ks with
    | nil => cases e <;> rfl
    | cons k ks =>
      have hk : k ≠ .observer o := fun hk => hd j e ks (by rw [hk])
      cases e <;> simp [Task.left, due, Task.due, hk]
  | notify _ _ _ ls | perform _ ls => cases ls <;> rfl
  | report | keep | adopt => rfl

/-- A task that tells an observer nothing leaves what is due to it as it is. -/
theorem due_doTask (hsound : Sound (· ∈ s.held) s) (hw : Wired s) (hp : Placed s i o) {t : Task} {rest : List Task}
    (ht : s.pending = t :: rest) (hb : ∀ v, s.emissionOf? .step ≠ some (i, v))
    (hd : ∀ j e more, t ≠ .deliver j e (.observer o :: more)) :
    due o (({ s with pending := rest } : Session).doTask t).pending = due o (t :: rest) := by
  have hs : Sound (bare _).hand _ := hsound.take ht t.left fun _ => within_left
  have hensuing : due o (({ s with pending := t.left ++ rest } : Session).ensuing t) = [] := by
    cases t with
    | notify x new previous ls =>
      cases ls with
      | nil => rfl
      | cons l ls =>
        simp only [ensuing]
        split
        · exact due_of_quiet (quiet_tell (n := 0) new previous l) o
        · rfl
    | deliver j e ks =>
      cases ks with
      | nil => rfl
      | cons k ks => exact due_of_quiet (quiet_receive (n := 0) e k) o
    | perform label cs =>
      cases cs with
      | nil => rfl
      | cons c cs =>
        have hc : ∀ v, ({ s with pending := [.perform label cs] ++ rest } : Session).emission? c ≠ some (i, v) := by
          intro v hv
          refine hb v ?_
          simp only [emissionOf?, carriedOut?, ht, Option.bind_some]
          exact hv
        have hquiet : due o (({ s with pending := [.perform label cs] ++ rest } : Session).execute c).tasks = [] :=
          due_execute_of_placed hs { hw with } { hp with } hc
        exact (due_append ..).trans (congrArg (· ++ _) hquiet)
    | report | keep | adopt => rfl
  rw [pending_doTask hsound ht, due_append, due_append, hensuing, due_left hd]
  rfl

/-! ### The last value that is due -/

theorem activeValue?_notify (s : Session) (x : Source) (new previous : Value) (o : ObserverId) :
    (s.notify x new previous).session.activeValue? o = s.activeValue? o := by
  cases x with
  | property | collection => rfl
  | observer p =>
    simp only [Session.activeValue?, notify, Store.sweep, Table.get?_modify]
    split
    next hp =>
      subst hp
      cases s.store.observers.get? p <;> rfl
    · rfl

theorem activeValue?_receive (s : Session) (e : StreamEvent) (o : ObserverId) :
    (s.receive e (.observer o)).session.activeValue? o = (s.activeValue? o).bind fun _ =>
      match e with
      | .next v => some v
      | _ => none := by
  cases hx : s.store.observers.get? o with
  | none => simp [receive, hx, Session.activeValue?]
  | some x =>
    have hset : ({ s with store := s.store.setObserver o (x.receive e).1 } : Session).activeValue? o =
        (x.receive e).1.activeValue? := by rw [activeValue?_setObserver, if_pos rfl]
    have hval : s.activeValue? o = x.activeValue? := by simp [Session.activeValue?, hx]
    rw [hval, ← Observer.activeValue?_receive, ← hset]
    simp only [receive, hx]
    split
    · rfl
    next new previous _ => exact activeValue?_notify _ _ new previous o

/-- An observer of a stream that emitted `v` is going to be left with `w`. -/
structure Landed (s : Session) (i : StreamId) (o : ObserverId) (v w : Value) : Prop where
  sound : Sound (· ∈ s.held) s
  wired : Wired s
  placed : Placed s i o
  streamOld : i.number < s.store.fresh
  observerOld : o.number < s.store.fresh
  latest : s.latest? i = some v
  settles {u : Value} : s.activeValue? o = some u → (due o s.pending).getLast?.getD u = w

theorem ActAllows.not_emits {b : Act} (hb : ∀ u, s.emissionOf? b ≠ some (i, u)) (u : Value) : ¬s.ActAllows b (.emits i u) := by
  intro h
  cases h with
  | calm h => rcases h with (h | h) | h <;> cases h
  | emits h => exact hb u h

theorem ActAllows.receives_eq {b : Act} {d : StreamEvent} (h : s.ActAllows b (.receives o d)) :
    b = .step ∧ ∃ j more rest, s.pending = .deliver j d (.observer o :: more) :: rest := by
  cases h with
  | calm h => rcases h with (h | h) | h <;> cases h
  | receives hb hp => exact ⟨hb, _, _, _, hp⟩

/-- Delivering the next value that is due settles nothing new. -/
theorem settles_deliver {e : StreamEvent} {more : List Sink} {rest : List Task} (hsound : Sound (· ∈ s.held) s)
    (ht : s.pending = .deliver j e (.observer o :: more) :: rest)
    (h : ∀ u, s.activeValue? o = some u → (due o s.pending).getLast?.getD u = w) {u : Value}
    (hu : s.step.activeValue? o = some u) : (due o s.step.pending).getLast?.getD u = w := by
  have hstep : s.step = ((({ s with pending := rest } : Session).push [.deliver j e more]).receive e (.observer o)).session.push
      ((({ s with pending := rest } : Session).push [.deliver j e more]).receive e (.observer o)).tasks := by
    simp only [step, ht, doTask]
  have hpending : ((({ s with pending := rest } : Session).push [.deliver j e more]).receive e (.observer o)).session.pending =
      .deliver j e more :: rest := pending_receive_next hsound ht
  have hvalue : s.step.activeValue? o = (s.activeValue? o).bind fun _ =>
      match e with
      | .next v => some v
      | _ => none := by
    rw [hstep]
    exact activeValue?_receive ..
  rw [hvalue] at hu
  obtain ⟨u', hu', hnext⟩ := Option.bind_eq_some_iff.1 hu
  have hbefore := h u' hu'
  rw [hstep]
  simp only [push, due_append, due_of_quiet (quiet_receive (n := 0) e (.observer o)), List.nil_append]
  have hafter : due o ((({ s with pending := rest } : Session).push [.deliver j e more]).receive e (.observer o)).session.pending =
      due o (.deliver j e more :: rest) := congrArg (due o) hpending
  refine (congrArg (fun l => l.getLast?.getD u) hafter).trans ?_
  cases e with
  | next v =>
    obtain rfl := Option.some.inj hnext
    rw [ht] at hbefore
    simpa [List.getLast?_cons] using hbefore
  | error | complete => cases hnext

theorem Landed.act {b : Act} (hb : ∀ u, s.emissionOf? b ≠ some (i, u)) (h : Landed s i o v w) : Landed (s.act b) i o v w := by
  obtain ⟨g, hm⟩ := moves_act h.sound (fun _ _ _ => False) b
  have hf := Moves.fresh_le hm
  constructor
  case sound => exact h.sound.act b
  case wired => exact h.wired.moves hm h.sound
  case placed => exact h.placed.moves hm h.sound h.wired h.streamOld h.observerOld
  case streamOld => exact Nat.lt_of_lt_of_le h.streamOld hf
  case observerOld => exact Nat.lt_of_lt_of_le h.observerOld hf
  case latest => exact (Moves.latest? hm h.streamOld (ActAllows.not_emits hb)).trans h.latest
  case settles =>
    intro u hu
    by_cases hd : ∃ d, s.ActAllows b (.receives o d)
    · obtain ⟨d, hd⟩ := hd
      obtain ⟨rfl, j, more, rest, ht⟩ := hd.receives_eq
      exact settles_deliver h.sound ht (fun _ => h.settles) hu
    · have hu' := Moves.activeValue? hm h.observerOld (fun d hd' => hd ⟨d, hd'⟩) hu
      have hdue : due o (s.act b).pending = due o s.pending := by
        cases b with
        | command c =>
          simp only [Session.act, give, push, due_append, pending_execute h.sound]
          rw [due_execute_of_placed (g := s.bare) h.sound h.wired h.placed hb]
          rfl
        | step =>
          simp only [Session.act, step]
          split
          · rfl
          next t rest ht =>
            rw [ht]
            refine due_doTask h.sound h.wired h.placed ht hb ?_
            rintro j e more rfl
            exact hd ⟨e, .receives rfl ht⟩
      rw [hdue]
      exact h.settles hu'

/-! ### Runs after an emission -/

theorem getLast?_map_const {α : Type} {ks : List α} (hk : ks ≠ []) (us : List Value) (u : Value) :
    ((ks.map fun _ => v) ++ us).getLast?.getD u = us.getLast?.getD v := by
  obtain ⟨k, hk⟩ := Option.isSome_iff_exists.1 (List.getLast?_isSome.2 hk)
  rw [List.getLast?_append, List.getLast?_map, hk]
  cases us.getLast? <;> rfl

theorem Placed.of_mem_sinks (hw : Wired s) {x : Subject} {t : Nat} (hx : s.store.streams.get? i = some (.subject x))
    (ht : (t, .observer o) ∈ x.sinks) : Placed s i o where
  only hj := (Subscription.subject.inj (Option.some.inj (hj.symm.trans (hw.owned (rollOf_of_get? hx) ht)))).1
  told := by
    intro x' _ hx' _
    obtain rfl := Option.some.inj ((rollOf_of_get? hx).symm.trans hx')
    exact ⟨t, ht⟩

/-- The work that a session has left when it is about to carry out a command. -/
theorem due_carriedOut? {a : Act} {t : Session} {c : Command} (h : s.carriedOut? a = some (t, c)) :
    due o t.pending = due o s.pending ∧ t.store = s.store ∧
      ∃ ts, due o ts = [] ∧ s.act a = (t.execute c).session.push ((t.execute c).tasks ++ ts) := by
  obtain ⟨rfl, rfl⟩ | ⟨label, cs, rest, rfl, hp, rfl⟩ := carriedOut?_eq_some h
  · exact ⟨rfl, rfl, [], rfl, by rw [List.append_nil]; rfl⟩
  · refine ⟨by rw [hp]; rfl, rfl,
      [.report label (({ s with pending := .perform label cs :: rest } : Session).execute c).reply], rfl, ?_⟩
    simp only [Session.act, step, hp, doTask]
    rfl

/-- An observer is left with the last value that was due to it before, or else with the one that is emitted. -/
theorem landed_of_emission (hsound : Sound (· ∈ s.held) s) (hw : Wired s) {a : Act}
    (he : s.emissionOf? a = some (i, v)) {x : Subject} {t : Nat} (hx : s.store.streams.get? i = some (.subject x))
    (ht : (t, .observer o) ∈ x.sinks) : Landed (s.act a) i o v ((due o s.pending).getLast?.getD v) := by
  have hplaced := Placed.of_mem_sinks hw hx ht
  have hiold : i.number < s.store.fresh := hsound.old (x := .stream i) (by simp [Store.Knows, hx])
  have hoold : o.number < s.store.fresh := hw.old (k := .observer o) (by simp [hw.owned (rollOf_of_get? hx) ht])
  obtain ⟨g, hm⟩ := moves_act hsound (fun _ _ _ => False) a
  have hf := Moves.fresh_le hm
  obtain ⟨⟨u, c⟩, hc, he⟩ := Option.bind_eq_some_iff.1 he
  obtain ⟨hdue, hstore, ts, hts, hact⟩ := due_carriedOut? (o := o) hc
  have hu := sound_carriedOut? hsound hc
  obtain ⟨x', hx', hclosed, hstreams, htasks⟩ := execute_of_emission? (g := u.bare) hu he
  obtain rfl : x = x' := by
    rw [hstore, hx] at hx'
    exact Stream.subject.inj (Option.some.inj hx')
  constructor
  case sound => exact hsound.act a
  case wired => exact hw.moves hm hsound
  case placed => exact hplaced.moves hm hsound hw hiold hoold
  case streamOld => exact Nat.lt_of_lt_of_le hiold hf
  case observerOld => exact Nat.lt_of_lt_of_le hoold hf
  case latest =>
    rw [hact, Session.latest?]
    have hget : (u.execute c).session.store.streams.get? i = some (.subject (x.emit v).1) := by
      rw [hstreams, Table.get?_insert, if_pos rfl]
    have hemit : (x.emit v).1.latest = some v := by simp [Subject.emit, hclosed]
    exact (congrArg (Option.bind · Stream.latest?) hget).trans hemit
  case settles =>
    intro u' _
    have hne : (x.sinks.map (·.2)).filter (· = .observer o) ≠ [] := by
      refine List.ne_nil_of_mem (a := .observer o) (List.mem_filter.2 ⟨?_, by simp⟩)
      exact List.mem_map.2 ⟨(t, .observer o), ht, rfl⟩
    have hpending : due o (s.act a).pending =
        (((x.sinks.map (·.2)).filter (· = .observer o)).map fun _ => v) ++ due o s.pending := by
      rw [hact]
      simp only [push, due_append, htasks, due_cons, due_deliver, due_nil, hts, List.append_nil, pending_execute hu, hdue]
    rw [hpending]
    exact getLast?_map_const hne _ _

/-- As long as the subject does not emit again, what an observer is going to be left with stays the same. -/
theorem Landed.play {bs : List Act} (h : Landed s i o v w)
    (hb : ∀ cs b ds u, bs = cs ++ b :: ds → (s.play cs).emissionOf? b ≠ some (i, u)) : Landed (s.play bs) i o v w := by
  induction bs generalizing s with
  | nil => exact h
  | cons b bs ih =>
    refine ih (h.act fun u => hb [] b bs u rfl) fun cs b' ds u hbs => ?_
    have := hb (b :: cs) b' ds u (by rw [hbs]; rfl)
    rwa [play_cons] at this

/-- An observer that is active was active before. -/
theorem Moves.active {E : Effect → Prop} {a b : Ghost × Session} (hm : Moves E a b) (ho : o.number < a.2.store.fresh)
    (h : (b.2.activeValue? o).isSome) : (a.2.activeValue? o).isSome := by
  induction hm with
  | refl => exact h
  | tail hm hlast ih =>
    obtain ⟨e, -, hlast⟩ := hlast
    have hf := Nat.lt_of_lt_of_le ho (Moves.fresh_le hm)
    refine ih ?_
    by_cases he : ∃ d, e = .receives o d
    · obtain ⟨d, rfl⟩ := he
      cases hlast with
      | receiving hx =>
        rw [activeValue?_setObserver, if_pos rfl, Observer.activeValue?_receive] at h
        obtain ⟨u, hu⟩ := Option.isSome_iff_exists.1 h
        obtain ⟨u', hu', -⟩ := Option.bind_eq_some_iff.1 hu
        rw [Session.activeValue?, hx]
        exact Option.isSome_iff_exists.2 ⟨u', hu'⟩
    · obtain ⟨u, hu⟩ := Option.isSome_iff_exists.1 h
      exact Option.isSome_iff_exists.2 ⟨u, hlast.activeValue? hf (fun d hd => he ⟨d, hd⟩) hu⟩

theorem active_play (hsound : Sound (· ∈ s.held) s) {bs : List Act} (ho : o.number < s.store.fresh)
    (h : ((s.play bs).activeValue? o).isSome) : (s.activeValue? o).isSome := by
  induction bs generalizing s with
  | nil => exact h
  | cons b bs ih =>
    obtain ⟨g, hm⟩ := moves_act hsound (fun _ _ _ => False) b
    exact Moves.active hm ho (ih (hsound.act b) (Nat.lt_of_lt_of_le ho (Moves.fresh_le hm)) h)

theorem isLive_of_active (h : (s.activeValue? o).isSome) : s.store.isLive o = true := by
  obtain ⟨u, hu⟩ := Option.isSome_iff_exists.1 h
  obtain ⟨x, hx, hxu⟩ := Option.bind_eq_some_iff.1 hu
  refine Store.isLive_iff.2 ⟨x, hx, ?_⟩
  unfold Observer.activeValue? at hxu
  split at hxu
  next ha =>
    have hstate : x.state = .active := by simpa [Observer.isActive] using ha
    simp [Observer.isDestroyed, hstate]
  · cases hxu

/-- The stream that emits is a subject that has not ended. -/
theorem rollOf_of_emissionOf? (hsound : Sound (· ∈ s.held) s) {a : Act} (he : s.emissionOf? a = some (i, v)) :
    ∃ x, s.store.streams.get? i = some (.subject x) ∧ x.isClosed = false := by
  obtain ⟨⟨u, c⟩, hc, he⟩ := Option.bind_eq_some_iff.1 he
  obtain ⟨x, hx, hclosed, -⟩ :=
    execute_of_emission? (g := u.bare) (sound_carriedOut? hsound hc) he
  rw [(due_carriedOut? (o := ⟨0⟩) hc).2.1] at hx
  exact ⟨x, hx, hclosed⟩

/-- When a subject has emitted for the last time and the work is done, each observer that was open then and is active
has the value that was delivered to it last. That is the latest value of the subject unless an earlier, different one
was still to be delivered to the observer. -/
theorem value_after_latest_emission (as bs : List Act) (a : Act) {y : SystemId} {i : StreamId} {o : ObserverId}
    {v : Value} {z : Observer} (he : (initial.play as).emissionOf? a = some (i, v)) (ho : Opened as y i o)
    (hlast : ∀ cs b ds u, bs = cs ++ b :: ds → (initial.play (as ++ a :: cs)).emissionOf? b ≠ some (i, u))
    (hdone : (initial.play (as ++ a :: bs)).pending = [])
    (hz : (initial.play (as ++ a :: bs)).store.observers.get? o = some z) (hactive : z.isActive = true) :
    (initial.play (as ++ a :: bs)).latest? i = some v ∧
      z.value = (due o (initial.play as).pending).getLast?.getD v ∧
      ((initial.play (as ++ a :: bs)).latest? i = some z.value ↔
        ∀ u, (due o (initial.play as).pending).getLast? = some u → u = v) := by
  obtain ⟨opened, hkept, hopened⟩ := exists_kept as
  have hsound := sound_initial.play as
  have hend : (initial.play (as ++ a :: bs)).activeValue? o = some z.value := by
    simp [Session.activeValue?, hz, Observer.activeValue?, hactive]
  rw [play_append] at hend
  have hopen := hopened y i o ho
  have hactive' : ((initial.play as).activeValue? o).isSome :=
    active_play hsound (hkept.old hopen).2 (Option.isSome_iff_exists.2 ⟨_, hend⟩)
  obtain ⟨x, hx, hclosed⟩ := rollOf_of_emissionOf? hsound he
  obtain ⟨t, ht⟩ := (hkept.placed hopen).told (isLive_of_active hactive') (rollOf_of_get? hx) hclosed
  have hlanded : Landed (((initial.play as).act a).play bs) i o v _ :=
    (landed_of_emission hsound hkept.wired he hx ht).play fun cs b ds u hbs => by
      have := hlast cs b ds u hbs
      rwa [play_append, play_cons] at this
  rw [play_append, play_cons] at hdone ⊢
  have hvalue := hlanded.settles hend
  rw [hdone] at hvalue
  have hvalue : z.value = (due o (initial.play as).pending).getLast?.getD v := hvalue
  refine ⟨hlanded.latest, hvalue, ?_⟩
  rw [hlanded.latest, Option.some.injEq, hvalue]
  cases (due o (initial.play as).pending).getLast? with
  | none => simp
  | some u => simp [eq_comm]

/-- A sink that emits `2` when it is told `1` leaves the observer that comes after it with `1`. -/
theorem value_after_nested_emission :
    let as : List Act := [.command (.makeSubject "s" none), .command (.subscribe "h" "s" [.next "s" (.int 2)] 1), .step,
      .command (.observe "main" "s" (some "o")), .command (.next "s" (.int 1)), .step]
    let s := initial.play (as ++ .step :: List.replicate 20 .step)
    s.pending = [] ∧ s.latest? ⟨1⟩ = some (.int 2) ∧ s.activeValue? ⟨3⟩ = some (.int 1) := by
  intro as s
  have he : (initial.play as).emissionOf? .step = some (⟨1⟩, .int 2) := rfl
  have ho : Opened as ⟨0⟩ ⟨1⟩ ⟨3⟩ := ⟨as, List.prefix_refl as, by decide +kernel⟩
  have hnone : ∀ k < 20, ((initial.play (as ++ .step :: List.replicate k .step)).emissionOf? .step).isNone := by
    decide +kernel
  have hdone : s.pending = [] := List.isEmpty_iff.1 (by decide +kernel)
  have hactive : (s.store.observers.get? ⟨3⟩).any Observer.isActive = true := by decide +kernel
  obtain ⟨z, hz, hactive⟩ := (Option.any_eq_true _ _).1 hactive
  have hlast : ∀ cs b ds u, List.replicate 20 Act.step = cs ++ b :: ds →
      (initial.play (as ++ .step :: cs)).emissionOf? b ≠ some (⟨1⟩, u) := by
    intro cs b ds u hbs hu
    obtain ⟨hlength, hcs, hds⟩ := List.append_eq_replicate_iff.1 hbs.symm
    obtain rfl := List.eq_of_mem_replicate (hds ▸ List.mem_cons_self)
    have := hnone cs.length (by simp at hlength; omega)
    rw [← hcs, hu] at this
    cases this
  obtain ⟨hlatest, hvalue, -⟩ := value_after_latest_emission as _ .step he ho hlast hdone hz hactive
  refine ⟨hdone, hlatest, ?_⟩
  have hdue : due ⟨3⟩ (initial.play as).pending = [.int 1] := rfl
  simp [Session.activeValue?, hz, Observer.activeValue?, hactive, hvalue, hdue]

end Session

end DataBinding
