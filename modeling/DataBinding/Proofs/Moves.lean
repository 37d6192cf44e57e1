import Mathlib.Logic.Relation
import DataBinding.Session.Change
import DataBinding.Proofs.Held
import DataBinding.Proofs.Opening
import DataBinding.Proofs.Tokens

/-!
# What can happen in a session

Everything that a session does is put together from a few moves: a name is given or taken, an object is written, an
observer is opened, told of an event or destroyed, and so on. `Move` lists them with what they ask for, so that an
invariant of sessions has to be looked at once for each move. Two things are kept beside the session. The hand has the
objects and streams that the code under way may refer to; whatever is made or written only refers to those. And of each
observer it is kept which system's registry opened it, and for which stream.

`Sound` says that the hand has all that is in reach. Each move preserves it (`Sound.move`), and so what has fallen out
of the hand is never held again.
-/

namespace DataBinding

/-- Everything in the list is among those. -/
def Session.Within (H : Session.Shared → Prop) (xs : List Session.Shared) : Prop := ∀ x ∈ xs, H x

open Session (Shared Within sharedIn)

/-- The converter makes up no objects or streams. -/
structure Converter.IsTame (c : Converter) : Prop where
  toView {H : Shared → Prop} {v : Value} {xs : List Value} :
    Within H (sharedIn v) → (∀ x ∈ xs, Within H (sharedIn x)) → Within H (sharedIn (c.toView v xs))
  fromView {H : Shared → Prop} {v : Value} {xs : List Value} :
    Within H (sharedIn v) → (∀ x ∈ xs, Within H (sharedIn x)) → Within H (sharedIn (c.fromView v xs))

/-- There is a state in which the expression has no value. -/
def Expr.CanFail (e : Expr) : Prop := ∃ ctx w t x, ((e.evaluate ctx w).run t).1 = .error x

/-- A binding may turn into one that differs in what it observes and shows, and in the failure of its expression. -/
structure Binding.Becomes (z x : Binding) : Prop where
  system : z.system = x.system
  expression : z.expression = x.expression
  lastError : x.lastError = none ∨ x.lastError = z.lastError ∨ x.expression.CanFail

theorem Binding.Becomes.refl (x : Binding) : x.Becomes x := ⟨rfl, rfl, .inr (.inl rfl)⟩

theorem Binding.Becomes.trans {x y z : Binding} (h : x.Becomes y) (h' : y.Becomes z) : x.Becomes z where
  system := h.system.trans h'.system
  expression := h.expression.trans h'.expression
  lastError := by
    rcases h'.lastError with he | he | he
    · exact .inl he
    · rw [he, ← h'.expression]
      exact h.lastError
    · exact .inr (.inr he)

/-- The observer that a system's registry has entered for a stream. -/
def Table.entryIn (t : Table SystemId System) (y : SystemId) (i : StreamId) : Option ObserverId :=
  (t.get? y).bind fun z => z.registry.entries.get? i

/-- The converter that a system has under a name. -/
def Table.converterIn (t : Table SystemId System) (y : SystemId) (n : String) : Option Converter :=
  (t.get? y).bind fun z => z.converters.get? n

namespace Session

/-- What is kept beside a session. -/
structure Ghost where
  /-- What the code under way may refer to. -/
  hand : Shared → Prop
  /-- Which observers a system's registry has opened for a stream so far. -/
  opened : SystemId → StreamId → ObserverId → Prop

/-- What a move does to the streams that others can see. -/
inductive Effect
  | silent
  /-- An object is made. -/
  | makes
  /-- The code under way lets go of what is out of reach otherwise. -/
  | narrows
  /-- The work under way is another. -/
  | work
  | puts (o : ObjectId) (name : String)
  /-- A binding comes to listen to an observer. -/
  | hears (b : BindingId)
  | emits (i : StreamId) (v : Value)
  | ends (i : StreamId) (e : StreamEvent)
  | receives (o : ObserverId) (e : StreamEvent)

/-- The moves that sessions make. -/
inductive Move : Effect → Ghost × Session → Ghost × Session → Prop
  | quiet {g s l t r c f} (hf : s.store.fresh ≤ f) :
    Move .silent (g, s)
      (g, { s with log := l, tokens := t, recorders := r, store := { s.store with collections := c, fresh := f } })
  | work {g s ts} (h : ∀ t ∈ ts, t ∈ s.pending ∨ Within g.hand (sharedInTask t)) :
    Move .work (g, s) (g, { s with pending := ts })
  | narrowing {g s} : Move .narrows (g, s) ({ g with hand := (· ∈ s.held) }, s)
  | names {g s t}
      (h : ∀ k n, t.get? k = some n → s.names.get? k = some n ∨ Within g.hand (s.sharedInName k n)) :
    Move .silent (g, s) (g, { s with names := t })
  | scope {g s n x} (h : Within g.hand (sharedInScope x)) :
    Move .silent (g, s) (g, { s with scopes := s.scopes.insert n x })
  | bindings {g s t}
      (h : ∀ b x, t.get? b = some x → s.bindings.get? b = some x ∨ Within g.hand (sharedInBinding x))
      (hs : ∀ b x, t.get? b = some x → ∃ z, s.bindings.get? b = some z ∧ z.Becomes x) :
    Move .silent (g, s) (g, { s with bindings := t })
  | newBinding {g s x} (h : Within g.hand (sharedInBinding x)) (hs : (s.systems.get? x.system).isSome)
      (he : x.lastError = none) :
    Move .silent (g, s)
      (g, { s with
        store := { s.store with fresh := s.store.fresh + 1 }
        bindings := s.bindings.insert ⟨s.store.fresh⟩ x })
  | records {g s t}
      (h : ∀ r x, t.get? r = some x → s.records.get? r = some x ∨ Within g.hand (sharedInRecord x)) :
    Move .silent (g, s) (g, { s with records := t })
  /-- A registry forgets nothing but observers that are gone and those of streams that are out of reach. -/
  | systems {g s t} (hk : ∀ y, (t.get? y).isSome → y.number < s.store.fresh)
      (hs : ∀ y, (s.systems.get? y).isSome → (t.get? y).isSome)
      (hc : ∀ y n c, t.converterIn y n = some c → c.IsTame ∨ s.systems.converterIn y n = some c)
      (he : ∀ y i o, t.entryIn y i = some o → s.systems.entryIn y i = some o)
      (hl : ∀ y i o, s.systems.entryIn y i = some o → s.store.isLive o = true → g.hand (.stream i) →
        t.entryIn y i = some o) :
    Move .silent (g, s) (g, { s with systems := t })
  /-- A registry that has no live observer of a stream opens one. -/
  | opening {g s y i t} (hi : g.hand (.stream i)) (hy : (s.systems.get? y).isSome)
      (hfree : ∀ o, s.systems.entryIn y i = some o → s.store.isLive o = false)
      (hs : ∀ z, (t.get? z).isSome = (s.systems.get? z).isSome)
      (hc : ∀ z n, t.converterIn z n = s.systems.converterIn z n)
      (he : ∀ z j, t.entryIn z j = if y = z ∧ i = j then some ⟨s.store.fresh⟩ else s.systems.entryIn z j) :
    Move .silent (g, s)
      ({ g with opened := fun z j o => g.opened z j o ∨ z = y ∧ j = i ∧ o = ⟨s.store.fresh⟩ },
        { s with store := (s.store.openObserver i).1, systems := t })
  | destroying {g s o x} (h : s.store.observers.get? o = some x) (hx : x.isDestroyed = false) :
    Move .silent (g, s)
      (g, { s with store := s.store.setObserver o { x with state := .destroyed, subscription := .closed } }.close
        x.subscription)
  | erasing {g s o x} (h : s.store.observers.get? o = some x) :
    Move .silent (g, s)
      (g, { s with store := { s.store with observers := s.store.observers.erase o } }.close x.subscription)
  | listening {g s o x ls} (h : s.store.observers.get? o = some x)
      (hl : ∀ n b, (n, .binding b) ∈ ls.entries → (n, .binding b) ∈ x.listeners.entries) :
    Move .silent (g, s) (g, { s with store := s.store.setObserver o { x with listeners := ls } })
  /-- A binding listens to observers that its system's registry has. -/
  | hearing {g s o x b z i} (h : s.store.observers.get? o = some x) (hb : s.bindings.get? b = some z)
      (hi : s.systems.entryIn z.system i = some o) :
    Move (.hears b) (g, s)
      (g, { s with store := s.store.setObserver o { x with listeners := (x.listeners.add (.binding b)).1 } })
  | releasing {g s k x} (h : s.handlers.get? k = some x) :
    Move .silent (g, s)
      (g, { s with handlers := s.handlers.insert k { x with subscription := .closed } }.close x.subscription)
  | subscribing {g s i x} (hx : x.subscription = s.store.subscription i (.handler ⟨s.store.fresh⟩)) :
    Move .silent (g, s)
      (g, { s with
        store := ({ s.store with fresh := s.store.fresh + 1 }.subscribe i (.handler ⟨s.store.fresh⟩)).1
        handlers := s.handlers.insert ⟨s.store.fresh⟩ x })
  | handler {g s k x x'} (h : s.handlers.get? k = some x) (hx : x'.subscription = x.subscription) :
    Move .silent (g, s) (g, { s with handlers := s.handlers.insert k x' })
  | newObject {g s ps} (h : ∀ v ∈ ps.values, Within g.hand (sharedIn v)) :
    Move .makes (g, s)
      ({ g with hand := fun z => g.hand z ∨ z = .object ⟨s.store.fresh⟩ }, { s with store := (s.store.newObject ps).1 })
  | newStream {g s x} (h : Within g.hand (sharedInStream x)) (hx : ∀ y, x = .subject y → y.sinks = []) :
    Move .silent (g, s)
      ({ g with hand := fun z => g.hand z ∨ z = .stream ⟨s.store.fresh⟩ }, { s with store := (s.store.newStream x).1 })
  /-- Listeners of a property come and go. -/
  | object {g s o u} (ho : g.hand (.object o)) (hu : ∀ n v, u ≠ .put n v) :
    Move .silent (g, s) (g, { s with store := s.store.setObject o ((s.store.object o).update u) })
  | putting {g s o n v} (ho : g.hand (.object o)) (hv : Within g.hand (sharedIn v)) :
    Move (.puts o n) (g, s) (g, { s with store := s.store.setObject o ((s.store.object o).put n v) })
  | emitting {g s i x v} (h : s.store.streams.get? i = some (.subject x)) (hi : g.hand (.stream i))
      (hv : Within g.hand (sharedIn v)) :
    Move (.emits i v) (g, s) (g, { s with store := s.store.setStream i (.subject (x.emit v).1) })
  | ending {g s i x e} (h : s.store.streams.get? i = some (.subject x)) (he : sharedInEvent e = []) :
    Move (.ends i e) (g, s) (g, { s with store := s.store.setStream i (.subject (x.terminate e).1) })
  | receiving {g s o x e} (h : s.store.observers.get? o = some x) (he : Within g.hand (sharedInEvent e)) :
    Move (.receives o e) (g, s) (g, { s with store := s.store.setObserver o (x.receive e).1 })

/-- Moves with such effects, one after another. -/
def Moves (E : Effect → Prop) : Ghost × Session → Ghost × Session → Prop :=
  Relation.ReflTransGen fun a b => ∃ e, E e ∧ Move e a b

/-! ### What is in reach stays in hand -/

/-- What the session holds from outside of objects and streams is in hand. -/
structure Outside (H : Shared → Prop) (s : Session) : Prop where
  names {k : Handle} {n : Nat} : s.names.get? k = some n → Within H (s.sharedInName k n)
  bindings {b : BindingId} {x : Binding} : s.bindings.get? b = some x → Within H (sharedInBinding x)
  records {r : RecordId} {x : Observations} : s.records.get? r = some x → Within H (sharedInRecord x)
  observers {o : ObserverId} {x : Observer} : s.store.observers.get? o = some x → Within H (sharedIn x.value)
  pending {t : Task} : t ∈ s.pending → Within H (sharedInTask t)

/-- Everything in reach is in hand, what is in hand exists, and the systems' converters are tame. -/
structure Sound (H : Shared → Prop) (s : Session) : Prop where
  outside : Outside H s
  closed {x : Shared} : H x → Within H (contents s.store x)
  held : Within H s.held
  known {x : Shared} : H x → s.store.Knows x
  old {x : Shared} : s.store.Knows x → x.number < s.store.fresh
  systemsOld {y : SystemId} : (s.systems.get? y).isSome → y.number < s.store.fresh
  tame {y : SystemId} {n : String} {c : Converter} : s.systems.converterIn y n = some c → c.IsTame

theorem Within.append {H : Shared → Prop} {xs ys : List Shared} : Within H (xs ++ ys) ↔ Within H xs ∧ Within H ys := by
  simp [Within, or_imp, forall_and]

theorem Within.mono {H H' : Shared → Prop} (h : ∀ x, H x → H' x) {xs : List Shared} (hx : Within H xs) : Within H' xs :=
  fun x hm => h x (hx x hm)

theorem Within.flatMap {H : Shared → Prop} {α : Type} {f : α → List Shared} {as : List α} :
    Within H (as.flatMap f) ↔ ∀ a ∈ as, Within H (f a) := by
  simp only [Within, List.mem_flatMap]
  exact ⟨fun h a ha x hx => h x ⟨a, ha, hx⟩, fun h x ⟨a, ha, hx⟩ => h a ha x hx⟩

variable {H H' : Shared → Prop} {s s' : Session}

theorem outside_iff : Outside H s ↔ Within H s.heldFromOutside := by
  unfold heldFromOutside
  simp only [Within.append, Within.flatMap]
  constructor
  · intro h
    refine ⟨⟨⟨⟨?_, ?_⟩, ?_⟩, ?_⟩, ?_⟩
    · exact fun e he => h.names (Table.mem_entries.1 he)
    · intro x hx
      obtain ⟨b, hb⟩ := Table.mem_values.1 hx
      exact h.bindings hb
    · intro x hx
      obtain ⟨r, hr⟩ := Table.mem_values.1 hx
      exact h.records hr
    · intro x hx
      obtain ⟨o, ho⟩ := Table.mem_values.1 hx
      exact h.observers ho
    · exact fun t ht => h.pending ht
  · rintro ⟨⟨⟨⟨hn, hb⟩, hr⟩, ho⟩, ht⟩
    exact
      { names := fun h => hn _ (Table.mem_entries.2 h)
        bindings := fun h => hb _ (Table.mem_values_of_get? h)
        records := fun h => hr _ (Table.mem_values_of_get? h)
        observers := fun h => ho _ (Table.mem_values_of_get? h)
        pending := fun h => ht _ h }

theorem Outside.mono (hH : ∀ x, H x → H' x) (h : Outside H s) : Outside H' s where
  names hk := (h.names hk).mono hH
  bindings hb := (h.bindings hb).mono hH
  records hr := (h.records hr).mono hH
  observers ho := (h.observers ho).mono hH
  pending ht := (h.pending ht).mono hH

/-- A change keeps a session sound if whatever it makes or writes to is in hand, and so is what it writes. -/
theorem Sound.change (h : Sound H s) (hH : ∀ x, H x → H' x) (outside : Outside H' s')
    (shared : ∀ x,
      contents s'.store x = contents s.store x ∧ (s'.store.Knows x ↔ s.store.Knows x) ∧ (H' x → H x) ∨
      H' x ∧ s'.store.Knows x ∧ x.number < s'.store.fresh ∧ Within H' (contents s'.store x))
    (fresh : s.store.fresh ≤ s'.store.fresh)
    (systemsOld : ∀ y, (s'.systems.get? y).isSome → y.number < s'.store.fresh)
    (tame : ∀ y n c, s'.systems.converterIn y n = some c → c.IsTame) : Sound H' s' := by
  have hclosed : ∀ x, H' x → Within H' (contents s'.store x) := by
    intro x hx
    rcases shared x with ⟨hc, -, hold⟩ | ⟨-, -, -, hw⟩
    · rw [hc]
      exact (h.closed (hold hx)).mono hH
    · exact hw
  constructor
  case outside => exact outside
  case closed => exact fun hx => hclosed _ hx
  case held =>
    -- what is held and not in hand would have held itself up before
    intro x hx
    refine Classical.byContradiction fun hn => ?_
    have hsame : ∀ y, ¬H' y → contents s'.store y = contents s.store y ∧ (s'.store.Knows y ↔ s.store.Knows y) := by
      intro y hy
      rcases shared y with ⟨hc, hk, -⟩ | ⟨hi, -⟩
      · exact ⟨hc, hk⟩
      · exact absurd hi hy
    have hX : Supported (contents s.store) s.heldFromOutside (fun y => y ∈ s'.held ∧ ¬H' y) := by
      rintro y ⟨hy, hyn⟩
      rcases supported_held s' y hy with ho | ⟨z, hz, hyz⟩
      · exact absurd (outside_iff.1 outside y ho) hyn
      · have hzn : ¬H' z := fun hz' => hyn (hclosed z hz' y hyz)
        exact .inr ⟨z, ⟨hz, hzn⟩, (hsame z hzn).1 ▸ hyz⟩
    have hk : ∀ y, (y ∈ s'.held ∧ ¬H' y) → s.store.Knows y :=
      fun y hy => (hsame y hy.2).2.1 (knows_of_mem_held hy.1)
    exact hn (hH x (h.held x (mem_held_of_supported hk hX ⟨hx, hn⟩)))
  case known =>
    intro x hx
    rcases shared x with ⟨-, hk, hold⟩ | ⟨-, hk, -⟩
    · exact hk.2 (h.known (hold hx))
    · exact hk
  case old =>
    intro x hx
    rcases shared x with ⟨-, hk, -⟩ | ⟨-, -, hlt, -⟩
    · exact Nat.lt_of_lt_of_le (h.old (hk.1 hx)) fresh
    · exact hlt
  case systemsOld => exact fun hy => systemsOld _ hy
  case tame => exact fun hc => tame _ _ _ hc

/-- A change that leaves alone what objects and streams hold. -/
theorem Sound.frame (h : Sound H s) (outside : Outside H s') (objects : s'.store.objects = s.store.objects)
    (streams : ∀ i, (s'.store.streams.get? i).map sharedInStream = (s.store.streams.get? i).map sharedInStream)
    (fresh : s.store.fresh ≤ s'.store.fresh)
    (systemsOld : ∀ y, (s'.systems.get? y).isSome → y.number < s'.store.fresh)
    (tame : ∀ y n c, s'.systems.converterIn y n = some c → c.IsTame) : Sound H s' := by
  refine h.change (fun _ => id) outside ?_ fresh systemsOld tame
  rintro (o | i)
  · exact .inl ⟨by simp only [contents, Store.object, objects], by simp only [Store.Knows, objects], id⟩
  · have := congrArg Option.isSome (streams i)
    exact .inl ⟨by simp only [contents, streams], by simpa [Store.Knows] using this, id⟩

/-! ### Releasing a subscription -/

section

variable (s : Session) (c : Subscription)

@[simp] theorem close_names : (s.close c).names = s.names := by cases c <;> rfl
@[simp] theorem close_scopes : (s.close c).scopes = s.scopes := by cases c <;> rfl
@[simp] theorem close_systems : (s.close c).systems = s.systems := by cases c <;> rfl
@[simp] theorem close_bindings : (s.close c).bindings = s.bindings := by cases c <;> rfl
@[simp] theorem close_handlers : (s.close c).handlers = s.handlers := by cases c <;> rfl
@[simp] theorem close_records : (s.close c).records = s.records := by cases c <;> rfl
@[simp] theorem close_pending : (s.close c).pending = s.pending := by cases c <;> rfl
@[simp] theorem close_objects : (s.close c).store.objects = s.store.objects := by cases c <;> rfl
@[simp] theorem close_observers : (s.close c).store.observers = s.store.observers := by cases c <;> rfl
@[simp] theorem close_fresh : (s.close c).store.fresh = s.store.fresh := by cases c <;> rfl

/-- A stream without the sink that the subscription is for. -/
def closedStream (i : StreamId) (x : Stream) : Stream :=
  match c with
  | .subject j token => if j = i then x.unsubscribe token else x
  | _ => x

theorem close_streams (i : StreamId) :
    (s.close c).store.streams.get? i = (s.store.streams.get? i).map (closedStream c i) := by
  cases c with
  | closed => cases h : s.store.streams.get? i <;> simp [close, closedStream, h]
  | cold label => cases h : s.store.streams.get? i <;> simp [close, note, closedStream, h]
  | subject j token =>
    simp only [close, Table.get?_modify]
    split
    next hj => cases h : s.store.streams.get? i <;> simp [closedStream, hj, h]
    next hj => cases h : s.store.streams.get? i <;> simp [closedStream, hj]

end

theorem sharedInStream_unsubscribe (token : Nat) (x : Stream) :
    sharedInStream (x.unsubscribe token) = sharedInStream x := by
  cases x <;> rfl

theorem sharedInStream_subscribe (i : StreamId) (k : Sink) (x : Stream) :
    sharedInStream (x.subscribe i k).1 = sharedInStream x := by
  cases x with
  | cold => rfl
  | subject y =>
    simp only [Stream.subscribe, Subject.subscribe]
    split
    next h =>
      split at h
      · cases h
      · obtain ⟨rfl, -⟩ := Prod.mk.inj h
        rfl
    next h =>
      split at h
      · obtain ⟨rfl, -⟩ := Prod.mk.inj h
        rfl
      · cases (Prod.mk.inj h).2

theorem sharedInStream_close (c : Subscription) (i : StreamId) :
    ((s.close c).store.streams.get? i).map sharedInStream = (s.store.streams.get? i).map sharedInStream := by
  rw [close_streams, Option.map_map]
  congr 1
  funext x
  unfold closedStream Function.comp
  dsimp only
  split
  · split
    · exact sharedInStream_unsubscribe ..
    · rfl
  · rfl

theorem sharedInStream_greeting {x : Stream} (hx : Within H (sharedInStream x)) {e : StreamEvent}
    (he : e ∈ x.greeting) : Within H (sharedInEvent e) := by
  cases x with
  | cold label events =>
    intro y hy
    exact hx y (List.mem_flatMap.2 ⟨e, he, hy⟩)
  | subject z =>
    simp only [Stream.greeting, Subject.greeting, List.mem_append] at he
    rcases he with he | he
    · split at he
      · obtain ⟨v, hv, rfl⟩ := List.mem_map.1 he
        exact fun y hy => hx y (List.mem_append_left _ (List.mem_flatMap.2 ⟨v, hv, hy⟩))
      · cases he
    · exact fun y hy => hx y (List.mem_append_right _ (List.mem_flatMap.2 ⟨e, he, hy⟩))

theorem within_receive {x : Observer} {e : StreamEvent} (hx : Within H (sharedIn x.value))
    (he : Within H (sharedInEvent e)) : Within H (sharedIn (x.receive e).1.value) := by
  cases e <;> simp only [Observer.receive] <;> split <;> assumption

theorem within_receiveAll {x : Observer} {es : List StreamEvent} (hx : Within H (sharedIn x.value))
    (he : ∀ e ∈ es, Within H (sharedInEvent e)) : Within H (sharedIn (x.receiveAll es).value) := by
  unfold Observer.receiveAll
  induction es generalizing x with
  | nil => exact hx
  | cons e es ih => exact ih (within_receive hx (he e (by simp))) fun d hd => he d (List.mem_cons_of_mem _ hd)

theorem streams_subscribe (t : Store) (i j : StreamId) (k : Sink) :
    (t.subscribe i k).1.streams.get? j =
      (t.streams.get? j).map fun x => if i = j then (x.subscribe i k).1 else x := by
  rw [Store.subscribe_eq]
  simp only [Table.get?_modify]
  split
  next h =>
    subst h
    simp
  next h => cases t.streams.get? j <;> simp

theorem sharedInStream_subscribe_get? (t : Store) (i j : StreamId) (k : Sink) :
    ((t.subscribe i k).1.streams.get? j).map sharedInStream = (t.streams.get? j).map sharedInStream := by
  rw [streams_subscribe, Option.map_map]
  congr 1
  funext x
  simp only [Function.comp]
  split
  · exact sharedInStream_subscribe ..
  · rfl

/-- The hand can be narrowed to what is held. -/
theorem Sound.narrow (h : Sound H s) : Sound (· ∈ s.held) s where
  outside := outside_iff.2 fun _ hx => mem_held_of_outside (h.known (outside_iff.1 h.outside _ hx)) hx
  closed hx _ hy := mem_held_of_contents (h.known (h.closed (h.held _ hx) _ hy)) hx hy
  held _ hx := hx
  known := knows_of_mem_held
  old := h.old
  systemsOld := h.systemsOld
  tame := h.tame

theorem object_close (s : Session) (c : Subscription) (o : ObjectId) : (s.close c).store.object o = s.store.object o := by
  simp only [Store.object, close_objects]

theorem Outside.close (h : Outside H s) (c : Subscription) : Outside H (s.close c) where
  names hk := by
    have := h.names (by simpa using hk)
    simpa only [sharedInName, close_scopes] using this
  bindings hb := h.bindings (by simpa using hb)
  records hr := h.records (by simpa using hr)
  observers ho := h.observers (by simpa using ho)
  pending ht := h.pending (by simpa using ht)

theorem Sound.close (h : Sound H s) (c : Subscription) : Sound H (s.close c) :=
  h.frame (h.outside.close c) (close_objects s c) (sharedInStream_close c)
    (by simp) (fun y hy => by simpa using h.systemsOld (by simpa using hy))
    (fun y n x hx => h.tame (by simpa using hx))

/-- Observers are told, opened and destroyed without harm as long as their values are in hand. -/
theorem Sound.observers (h : Sound H s) {t : Table ObserverId Observer}
    (ht : ∀ o x, t.get? o = some x → Within H (sharedIn x.value)) :
    Sound H { s with store := { s.store with observers := t } } :=
  h.frame { h.outside with observers := ht _ _ } rfl (fun _ => rfl) (Nat.le_refl _) (fun _ => h.systemsOld)
    (fun _ _ _ => h.tame)

theorem Sound.setObserver (h : Sound H s) {o : ObserverId} {x : Observer} (hx : Within H (sharedIn x.value)) :
    Sound H { s with store := s.store.setObserver o x } := by
  apply h.observers
  intro p y hy
  rw [Table.get?_insert] at hy
  split at hy
  · obtain rfl : x = y := by simpa using hy
    exact hx
  · exact h.outside.observers hy

/-- What is outside of objects and streams has changed, and the store and the systems have not. -/
theorem Sound.aside (h : Sound H s) (outside : Outside H s') (store : s'.store = s.store)
    (systems : s'.systems = s.systems) : Sound H s' :=
  h.frame outside (by rw [store]) (fun _ => by rw [store]) (by rw [store])
    (fun _ hy => by rw [store]; exact h.systemsOld (systems ▸ hy)) fun _ _ _ hc => h.tame (systems ▸ hc)

theorem Sound.handlers (h : Sound H s) (t : Table SinkId Handler) : Sound H { s with handlers := t } :=
  h.aside { h.outside with } rfl rfl

/-- A scope of what is in hand is put in its place. -/
theorem Sound.scope (h : Sound H s) (n : ScopeId) {x : Scope} (hx : Within H (sharedInScope x)) :
    Sound H { s with scopes := s.scopes.insert n x } := by
  refine h.aside { h.outside with names := ?_ } rfl rfl
  intro k m hk
  have hold := h.outside.names hk
  unfold sharedInName at hold ⊢
  split at hold
  next => exact hold
  next => exact hold
  next =>
    simp only [Table.get?_insert]
    split
    · simpa using hx
    · exact hold
  next => exact hold

/-- What a move makes is in hand afterwards. -/
theorem Sound.insertShared (h : Sound H s) {x : Shared} (hx : x.number = s.store.fresh) {t : Store}
    (hw : Within H (contents t x)) (hk : t.Knows x) (hc : ∀ y, y ≠ x → contents t y = contents s.store y)
    (hks : ∀ y, y ≠ x → (t.Knows y ↔ s.store.Knows y)) (ho : t.observers = s.store.observers)
    (hf : t.fresh = s.store.fresh + 1) : Sound (fun z => H z ∨ z = x) { s with store := t } := by
  have hmono : ∀ z, H z → H z ∨ z = x := fun _ => .inl
  refine h.change hmono { h.outside.mono hmono with observers := ?_ } ?_ (by simp [hf]) ?_ (fun _ _ _ => h.tame)
  · intro o y hy
    exact (h.outside.observers (ho ▸ hy)).mono hmono
  · intro y
    by_cases hy : y = x
    · subst hy
      exact .inr ⟨.inr rfl, hk, by simp [hf, hx], hw.mono hmono⟩
    · exact .inl ⟨hc y hy, hks y hy, fun hH => hH.resolve_right hy⟩
  · intro y hy
    simpa [hf] using Nat.lt_succ_of_lt (h.systemsOld hy)

/-- A stream that emits holds a value in hand. -/
theorem Sound.setStream (h : Sound H s) {i : StreamId} {x : Stream} (hi : s.store.Knows (.stream i))
    (hx : (s.store.streams.get? i).map sharedInStream = some (sharedInStream x) ∨
      H (.stream i) ∧ Within H (sharedInStream x)) :
    Sound H { s with store := s.store.setStream i x } := by
  have hget : ∀ j, (s.store.setStream i x).streams.get? j = if i = j then some x else s.store.streams.get? j :=
    fun j => Table.get?_insert ..
  rcases hx with hx | ⟨hi', hw⟩
  · refine h.frame { h.outside with } rfl (fun j => ?_) (Nat.le_refl _) (fun _ => h.systemsOld) (fun _ _ _ => h.tame)
    simp only [hget]
    split
    next hij => rw [← hij, hx, Option.map_some]
    · rfl
  · refine h.change (fun _ => id) { h.outside with } ?_ (Nat.le_refl _) (fun _ => h.systemsOld) (fun _ _ _ => h.tame)
    rintro (o | j)
    · exact .inl ⟨rfl, .rfl, id⟩
    · by_cases hij : i = j
      · subst hij
        exact .inr ⟨hi', by simp [Store.Knows, hget], h.old hi, by simpa [contents, hget] using hw⟩
      · exact .inl ⟨by simp [contents, hget, hij], by simp [Store.Knows, hget, hij], id⟩

/-- An object that is in hand holds what is in hand. -/
theorem Sound.setObject (h : Sound H s) {o : ObjectId} {x : Object} (ho : H (.object o))
    (hx : Within H (sharedInObject x)) : Sound H { s with store := s.store.setObject o x } := by
  refine h.change (fun _ => id) { h.outside with } ?_ (Nat.le_refl _) (fun _ => h.systemsOld) (fun _ _ _ => h.tame)
  rintro (p | i)
  · by_cases hp : o = p
    · subst hp
      refine .inr ⟨ho, ?_, h.old (h.known ho), ?_⟩
      · simp [Store.Knows, Store.setObject, Table.get?_insert]
      · simpa [contents, Store.object_setObject] using hx
    · refine .inl ⟨?_, ?_, id⟩
      · simp [contents, Store.object_setObject, hp]
      · simp [Store.Knows, Store.setObject, Table.get?_insert, hp]
  · exact .inl ⟨rfl, .rfl, id⟩

theorem Sound.newObject (h : Sound H s) {ps : Table String Value} (hp : ∀ v ∈ ps.values, Within H (sharedIn v)) :
    Sound (fun z => H z ∨ z = .object ⟨s.store.fresh⟩) { s with store := (s.store.newObject ps).1 } := by
  refine h.insertShared (x := .object ⟨s.store.fresh⟩) rfl ?_ ?_ ?_ ?_ rfl rfl
  · simpa [contents, Store.newObject, Store.object, Table.get?_insert, sharedInObject, Within.flatMap] using hp
  · simp [Store.Knows, Store.newObject, Table.get?_insert]
  · rintro (o | i) hne
    · have : (⟨s.store.fresh⟩ : ObjectId) ≠ o := fun he => hne (by rw [he])
      simp [contents, Store.object, Store.newObject, Table.get?_insert, this]
    · rfl
  · rintro (o | i) hne
    · have : (⟨s.store.fresh⟩ : ObjectId) ≠ o := fun he => hne (by rw [he])
      simp [Store.Knows, Store.newObject, Table.get?_insert, this]
    · rfl

theorem Sound.newStream (h : Sound H s) {x : Stream} (hx : Within H (sharedInStream x)) :
    Sound (fun z => H z ∨ z = .stream ⟨s.store.fresh⟩) { s with store := (s.store.newStream x).1 } := by
  refine h.insertShared (x := .stream ⟨s.store.fresh⟩) rfl ?_ ?_ ?_ ?_ rfl rfl
  · simpa [contents, Store.newStream, Table.get?_insert] using hx
  · simp [Store.Knows, Store.newStream, Table.get?_insert]
  · rintro (o | i) hne
    · rfl
    · have : (⟨s.store.fresh⟩ : StreamId) ≠ i := fun he => hne (by rw [he])
      simp [contents, Store.newStream, Table.get?_insert, this]
  · rintro (o | i) hne
    · rfl
    · have : (⟨s.store.fresh⟩ : StreamId) ≠ i := fun he => hne (by rw [he])
      simp [Store.Knows, Store.newStream, Table.get?_insert, this]

/-- An observer that is opened for a stream in hand has its value from it. -/
theorem Sound.openObserver (h : Sound H s) {i : StreamId} (hi : H (.stream i)) :
    Sound H { s with store := (s.store.openObserver i).1 } := by
  have hg : ∀ e ∈ s.store.greeting i, Within H (sharedInEvent e) := by
    intro e hmem
    unfold Store.greeting at hmem
    cases hx : s.store.streams.get? i with
    | none => simp [hx] at hmem
    | some x =>
      have hw : Within H (sharedInStream x) := by simpa [contents, hx] using h.closed hi
      exact sharedInStream_greeting hw (by simpa [hx] using hmem)
  have hv : Within H (sharedIn (s.store.opened i).value) := by
    apply within_receiveAll _ hg
    exact fun _ hx => by cases hx
  rw [Store.openObserver_eq]
  refine h.frame { h.outside with observers := ?_ } rfl ?_ (Nat.le_succ _) ?_ (fun _ _ _ => h.tame)
  · intro o x ho
    rw [Table.get?_insert] at ho
    split at ho
    · obtain rfl : s.store.opened i = x := by simpa using ho
      exact hv
    · exact h.outside.observers ho
  · intro j
    simpa [Store.subscribe_eq] using sharedInStream_subscribe_get? s.store i j (.observer ⟨s.store.fresh⟩)
  · exact fun z hz => Nat.lt_succ_of_lt (h.systemsOld hz)

/-- A new sink of the host is subscribed to a stream. -/
theorem Sound.subscribe (h : Sound H s) (i : StreamId) :
    Sound H { s with
      store := ({ s.store with fresh := s.store.fresh + 1 }.subscribe i (.handler ⟨s.store.fresh⟩)).1 } := by
  refine h.frame { h.outside with observers := ?_ } ?_ ?_ ?_ ?_ (fun _ _ _ => h.tame)
  · intro o y ho
    rw [Store.subscribe_eq] at ho
    exact h.outside.observers ho
  · simp [Store.subscribe_eq]
  · intro j
    exact sharedInStream_subscribe_get? { s.store with fresh := s.store.fresh + 1 } i j (.handler ⟨s.store.fresh⟩)
  · simp [Store.subscribe_eq]
  · intro y hy
    simpa [Store.subscribe_eq] using Nat.lt_succ_of_lt (h.systemsOld hy)

theorem Sound.systems (h : Sound H s) {t : Table SystemId System}
    (hk : ∀ y, (t.get? y).isSome → y.number < s.store.fresh) (hc : ∀ y n c, t.converterIn y n = some c → c.IsTame) :
    Sound H { s with systems := t } :=
  h.frame { h.outside with } rfl (fun _ => rfl) (Nat.le_refl _) hk hc

theorem within_put {x : Object} (hx : Within H (sharedInObject x)) (n : String) {v : Value}
    (hv : Within H (sharedIn v)) : Within H (sharedInObject (x.put n v)) := by
  simp only [sharedInObject, Within.flatMap] at hx ⊢
  intro u hu
  obtain ⟨k, hk⟩ := Table.mem_values.1 hu
  rw [Object.put, Table.get?_insert] at hk
  split at hk
  · obtain rfl : v = u := by simpa using hk
    exact hv
  · exact hx u (Table.mem_values_of_get? hk)

/-- Every move keeps all that is in reach in hand. -/
theorem Sound.move {e : Effect} {a b : Ghost × Session} (hm : Move e a b) (h : Sound a.1.hand a.2) :
    Sound b.1.hand b.2 := by
  cases hm with
  | quiet hf =>
    exact h.frame { h.outside with } rfl (fun _ => rfl) hf (fun _ hy => Nat.lt_of_lt_of_le (h.systemsOld hy) hf)
      (fun _ _ _ => h.tame)
  | work ht =>
    refine h.aside { h.outside with pending := ?_ } rfl rfl
    exact fun {t} hmem => (ht t hmem).elim h.outside.pending id
  | narrowing => exact h.narrow
  | names ht =>
    refine h.aside { h.outside with names := ?_ } rfl rfl
    exact fun {k n} hk => (ht k n hk).elim h.outside.names id
  | scope hx => exact h.scope _ hx
  | bindings ht _ =>
    refine h.aside { h.outside with bindings := ?_ } rfl rfl
    exact fun {b x} hb => (ht b x hb).elim h.outside.bindings id
  | @newBinding g s x hx _ _ =>
    refine h.frame { h.outside with bindings := ?_ } rfl (fun _ => rfl) (Nat.le_succ _)
      (fun _ hy => Nat.lt_succ_of_lt (h.systemsOld hy)) (fun _ _ _ => h.tame)
    intro b y hb
    rw [Table.get?_insert] at hb
    split at hb
    · obtain rfl := Option.some.inj hb
      exact hx
    · exact h.outside.bindings hb
  | records ht =>
    refine h.aside { h.outside with records := ?_ } rfl rfl
    exact fun {r x} hr => (ht r x hr).elim h.outside.records id
  | systems hk _ hc => exact h.systems hk fun y n c hn => (hc y n c hn).elim id h.tame
  | opening hi _ _ hs hc =>
    have ho := h.openObserver hi
    exact ho.systems (fun z hz => ho.systemsOld (hs z ▸ hz)) fun z n c hn => h.tame (hc z n ▸ hn)
  | @destroying g s o x ho hx =>
    have hv : Within g.hand (sharedIn x.value) := h.outside.observers ho
    apply Sound.close
    apply h.setObserver
    exact hv
  | @erasing g s o x ho =>
    apply Sound.close
    apply h.observers
    intro p y hy
    rw [Table.get?_erase] at hy
    split at hy
    · cases hy
    · exact h.outside.observers hy
  | @listening g s o x ls ho _ =>
    have hv : Within g.hand (sharedIn x.value) := h.outside.observers ho
    apply h.setObserver
    exact hv
  | @hearing g s o x b z i ho _ _ =>
    have hv : Within g.hand (sharedIn x.value) := h.outside.observers ho
    apply h.setObserver
    exact hv
  | releasing hk => exact (h.handlers _).close _
  | subscribing => exact (h.subscribe _).handlers _
  | handler hk hx => exact h.handlers _
  | newObject hp => exact h.newObject hp
  | newStream hx _ => exact h.newStream hx
  | @object g s o u ho hu =>
    refine h.setObject ho ?_
    rw [sharedInObject, Object.properties_update hu]
    exact h.closed ho
  | putting ho hv => exact h.setObject ho (within_put (h.closed ho) _ hv)
  | @emitting g s i x v hs hi hv =>
    refine h.setStream (h.known hi) (.inr ⟨hi, ?_⟩)
    have hc : Within g.hand (sharedInStream (.subject x)) := by simpa [contents, hs] using h.closed hi
    unfold Subject.emit
    split
    · exact hc
    · exact Within.append.2 ⟨by simpa using hv, (Within.append.1 hc).2⟩
  | @ending g s i x e hs he =>
    refine h.setStream (by simp [Store.Knows, hs]) (.inl ?_)
    rw [hs, Option.map_some]
    unfold Subject.terminate
    split
    · rfl
    next hc =>
      have : x.terminal = none := by simpa [Subject.isClosed] using hc
      simp [sharedInStream, this, he]
  | receiving ho he => exact h.setObserver (within_receive (h.outside.observers ho) he)

/-! ### Sequences of moves -/

variable {E E' : Effect → Prop} {e : Effect} {a b c : Ghost × Session} {g g' : Ghost}

theorem Moves.refl : Moves E a a := Relation.ReflTransGen.refl

theorem Moves.trans (h : Moves E a b) (h' : Moves E b c) : Moves E a c := Relation.ReflTransGen.trans h h'

theorem Moves.of_move (he : E e) (h : Move e a b) : Moves E a b := .single ⟨e, he, h⟩

theorem Moves.mono (hE : ∀ e, E e → E' e) (h : Moves E a b) : Moves E' a b :=
  Relation.ReflTransGen.mono (fun _ _ ⟨e, he, hm⟩ => ⟨e, hE e he, hm⟩) _ _ h

theorem Sound.moves (hm : Moves E a b) (h : Sound a.1.hand a.2) : Sound b.1.hand b.2 := by
  induction hm with
  | refl => exact h
  | tail _ hm ih =>
    obtain ⟨_, _, hm⟩ := hm
    exact ih.move hm

/-- Nothing changes that others could see coming from a stream, and nothing is let go. -/
def Silent (e : Effect) : Prop := e = .silent ∨ e = .makes

/-- Only objects are made. -/
def Making (e : Effect) : Prop := e = .makes

/-- As `Silent`, but things may be let go. -/
def Calm (e : Effect) : Prop := Silent e ∨ e = .narrows

theorem Moves.silent (h : Move .silent a b) : Moves Silent a b := .of_move (.inl rfl) h

theorem Moves.making (h : Moves Making a b) : Moves Silent a b := h.mono fun _ => .inr

theorem Moves.calm (h : Moves Silent a b) : Moves Calm a b := h.mono fun _ => .inl

theorem Moves.hand_mono (hm : Moves Silent a b) {x : Shared} (hx : a.1.hand x) : b.1.hand x := by
  induction hm with
  | refl => exact hx
  | tail _ hm ih =>
    obtain ⟨e, rfl | rfl, hm⟩ := hm
    · cases hm with
      | newStream => exact .inl ih
      | _ => exact ih
    · cases hm with
      | newObject => exact .inl ih

end Session

end DataBinding
