import DataBinding.Session.Run
import DataBinding.Proofs.Moves.Execute

/-!
# What is still to be delivered

The work under way may have values to deliver to an observer (`due`). Emissions add to them, and nothing else that
happens does: changes of properties and observers are told to listeners, a new sink of the host is greeted alone
(`quiet_execute`), and a subject that ends delivers no value. A command that does not write a property either leaves
nothing to be told of but collections that the host notifies by hand (`idle_execute`).
-/

namespace DataBinding

/-- The values that a task delivers to an observer. -/
def Task.due (o : ObserverId) : Task → List Value
  | .deliver _ (.next v) rest => (rest.filter (· = .observer o)).map fun _ => v
  | _ => []

/-- The values that the tasks deliver to an observer, in order. -/
def due (o : ObserverId) (ts : List Task) : List Value := ts.flatMap (Task.due o)

/-- Tasks that deliver nothing, but to the sink of the host with the number `n`. -/
def Task.IsQuiet (n : Nat) : Task → Prop
  | .deliver _ _ rest => rest = [.handler ⟨n⟩]
  | _ => True

/-- Quiet tasks that tell of no change of a property or an observer. -/
def Task.IsIdle (n : Nat) : Task → Prop
  | .notify x _ _ _ => ∃ c, x = .collection c
  | .deliver _ _ rest => rest = [.handler ⟨n⟩]
  | _ => True

/-- The command has a subject tell its sinks. -/
def Command.tells : Command → Bool
  | .next .. | .fail .. | .complete .. => true
  | _ => false

/-- The command makes a sink. -/
def Command.subscribes : Command → Bool
  | .subscribe .. => true
  | _ => false

/-- All the tasks are quiet. -/
def Quiet (n : Nat) (ts : List Task) : Prop := ∀ t ∈ ts, t.IsQuiet n

/-- All the tasks are idle. -/
def Idle (n : Nat) (ts : List Task) : Prop := ∀ t ∈ ts, t.IsIdle n

section

variable {n : Nat} {o : ObserverId} {t : Task} {ts us : List Task}

@[simp] theorem due_nil : due o [] = [] := rfl

@[simp] theorem due_cons (t : Task) (ts : List Task) : due o (t :: ts) = t.due o ++ due o ts := rfl

@[simp] theorem due_append (ts us : List Task) : due o (ts ++ us) = due o ts ++ due o us := List.flatMap_append

@[simp] theorem due_deliver (i : StreamId) (v : Value) (ks : List Sink) :
    (Task.deliver i (.next v) ks).due o = (ks.filter (· = .observer o)).map fun _ => v := rfl

theorem due_of_quiet (h : Quiet n ts) (o : ObserverId) : due o ts = [] := by
  refine List.flatMap_eq_nil_iff.2 fun t ht => ?_
  have hq := h t ht
  unfold Task.due
  split
  next rest =>
    obtain rfl : rest = [.handler ⟨n⟩] := hq
    rfl
  · rfl

theorem quiet_nil : Quiet n [] := by simp [Quiet]

theorem quiet_cons : Quiet n (t :: ts) ↔ t.IsQuiet n ∧ Quiet n ts := by simp [Quiet]

theorem quiet_append : Quiet n (ts ++ us) ↔ Quiet n ts ∧ Quiet n us := by simp [Quiet, or_imp, forall_and]

theorem Task.IsIdle.quiet (h : t.IsIdle n) : t.IsQuiet n := by
  cases t <;> trivial

theorem Idle.quiet (h : Idle n ts) : Quiet n ts := fun t ht => (h t ht).quiet

theorem idle_nil : Idle n [] := by simp [Idle]

theorem idle_append : Idle n (ts ++ us) ↔ Idle n ts ∧ Idle n us := by simp [Idle, or_imp, forall_and]

end

namespace Session

variable {n : Nat} {s : Session}

/-! ### Changes deliver nothing -/

theorem quiet_notify (x : Source) (new previous : Value) : Quiet n (s.notify x new previous).tasks := by
  simp [notify, Quiet, Task.IsQuiet]

theorem quiet_write (p : ObjectId) (name : String) (v : Value) : Quiet n (s.write p name v).tasks := by
  unfold write
  dsimp only
  split
  · exact quiet_notify _ _ _
  · exact quiet_nil

theorem quiet_assign {y : SystemId} {flags : EvalFlags} {scope : Scope} {host : Option Scope} {e : Expr} {v : Value}
    {r : Reaction} (h : s.assign y flags scope host e v = .ok r) : Quiet n r.tasks := by
  obtain ⟨t, d, -, rfl⟩ := exists_write_of_assign h
  exact quiet_write _ _ _

theorem quiet_writeTarget (b : BindingId) (x : Binding) (v : Value) : Quiet n (s.writeTarget b x v).tasks :=
  quiet_write _ _ _

theorem quiet_bind (b : BindingId) (x : Binding) (y : Bound) : Quiet n (s.bind b x y).1.tasks := by
  unfold bind
  split
  · exact quiet_nil
  · dsimp only
    split
    · exact quiet_writeTarget _ _ _
    · exact quiet_nil

theorem quiet_refresh (b : BindingId) : Quiet n (s.refresh b).tasks := by
  unfold refresh
  split
  · exact quiet_nil
  · split
    · exact quiet_nil
    · split
      · exact quiet_writeTarget _ _ _
      · exact quiet_nil

theorem quiet_updateSource {x : Binding} {v : Value} {r : Reaction} (h : s.updateSource x v = .ok r) :
    Quiet n r.tasks := by
  obtain ⟨y, -, hassign⟩ := exists_assign_of_updateSource h
  exact quiet_assign hassign

theorem quiet_andThen {r : Reaction} (h : Quiet n r.tasks) (x : Ref) : Quiet n (r.andThen [.keep x]).tasks :=
  quiet_append.2 ⟨h, quiet_cons.2 ⟨trivial, quiet_nil⟩⟩

theorem quiet_tell (new previous : Value) (l : Listener) : Quiet n (s.tell new previous l).tasks := by
  cases l with
  | binding b => exact quiet_andThen (quiet_refresh b) _
  | recorder i =>
    simp only [tell]
    split
    · exact quiet_nil
    · split
      · exact quiet_nil
      · simp [Quiet, Task.IsQuiet]

theorem quiet_receive (e : StreamEvent) (k : Sink) : Quiet n (s.receive e k).tasks := by
  cases k with
  | observer p =>
    simp only [receive]
    split
    · exact quiet_nil
    · split
      · exact quiet_nil
      · exact quiet_andThen (quiet_notify _ _ _) _
  | handler k =>
    simp only [receive]
    split
    · exact quiet_nil
    · split
      · exact quiet_nil
      · simp [Quiet, Task.IsQuiet]

theorem due_terminate (i : StreamId) {e : StreamEvent} (he : ∀ v, e ≠ .next v) (o : ObserverId) :
    due o (s.terminate i e).tasks = [] := by
  unfold terminate
  split
  · cases e with
    | next v => exact absurd rfl (he v)
    | error | complete => rfl
  · rfl

/-! ### Commands -/

/-- If there is an answer, the tasks that it leaves to be done are quiet. -/
def QuietAnswer (n : Nat) (a? : Option Answer) : Prop := ∀ a, a? = some a → Quiet n a.tasks

/-- If there is an answer, the tasks that it leaves to be done are idle. -/
def IdleAnswer (n : Nat) (a? : Option Answer) : Prop := ∀ a, a? = some a → Idle n a.tasks

theorem QuietAnswer.bind {α : Type} {x : Option α} {f : α → Option Answer} (h : ∀ a, QuietAnswer n (f a)) :
    QuietAnswer n (x >>= f) := by
  intro a ha
  obtain ⟨b, -, ha⟩ := Option.bind_eq_some_iff.1 ha
  exact h b a ha

theorem QuietAnswer.some {a : Answer} (h : Quiet n a.tasks) : QuietAnswer n (some a) := by
  intro b hb
  obtain rfl := Option.some.inj hb
  exact h

theorem IdleAnswer.bind {α : Type} {x : Option α} {f : α → Option Answer} (h : ∀ a, IdleAnswer n (f a)) :
    IdleAnswer n (x >>= f) := by
  intro a ha
  obtain ⟨b, -, ha⟩ := Option.bind_eq_some_iff.1 ha
  exact h b a ha

theorem IdleAnswer.some {a : Answer} (h : Idle n a.tasks) : IdleAnswer n (some a) := by
  intro b hb
  obtain rfl := Option.some.inj hb
  exact h

theorem quietAnswer_bind (binding scope : String) (host : Option String) :
    QuietAnswer n (s.answerBind binding scope host) := by
  refine .bind fun ⟨b, x⟩ => .bind fun scope => .bind fun host => ?_
  have h := quiet_bind (n := n) (s := s) b x { scope, host }
  split
  next hb =>
    rw [hb] at h
    exact .some (quiet_andThen h _)
  next hb =>
    rw [hb] at h
    exact .some h

theorem quietAnswer_assign (expression : HostExpr) (place : Place) (value : HostValue) :
    QuietAnswer n (s.answerAssign expression place value) := by
  intro a ha
  cases answer_assign ha with
  | refused | failed => exact quiet_nil
  | accepted _ _ _ hr => exact quiet_assign hr

theorem quietAnswer_updateSource (binding : String) (value : HostValue) :
    QuietAnswer n (s.answerUpdateSource binding value) := by
  intro a ha
  cases answer_updateSource ha with
  | accepted _ _ hr => exact quiet_andThen (quiet_updateSource hr) _
  | failed => exact quiet_nil

theorem MakeAnswer.tasks {name system target : String} {a : Answer} (ha : MakeAnswer s name system target a) :
    a.tasks = [] := by
  cases ha <;> rfl

/-- A command leaves nothing to be done, unless it writes a property, has a subject or a collection tell of something, or
makes a sink. -/
theorem tasks_answer {c : Command} (hc : c.tells = false) (hw : c.writes = false) (hs : c.subscribes = false)
    (hn : ∀ name new previous, c ≠ .notify name new previous) : Ensures (·.tasks = []) (s.answer? c) := by
  cases c with
  | next | fail | complete => cases hc
  | set | assign | bind | updateSource => cases hw
  | subscribe => cases hs
  | notify => exact absurd rfl (hn _ _ _)
  | makeSystem name config =>
    simp only [answer?, answerMakeSystem]
    split <;> exact .some rfl
  | makeRecorder | makeCollection | makeRecord => exact .some rfl
  | makeFromAttribute => exact fun a ha => (answer_makeFromAttribute ha).tasks
  | makeBinding => exact fun a ha => (answer_makeBinding ha).tasks
  | drop what name =>
    simp only [answer?, answerDrop]
    split <;> exact .some rfl
  | observe system stream name =>
    refine .bind fun _ _ => .bind fun _ _ => ?_
    cases name <;> exact .some rfl
  | evaluate =>
    intro a ha
    cases answer_evaluate ha with
    | refused => rfl
    | evaluated =>
      unfold evaluateAlone
      dsimp only
      split <;> rfl
  | makeObject | makeSubject | makeCold | addConverter | get | has | keys | prune | shutdown | destroy | setValue
  | unbind | nextVersion | clearStale | clearRecord | describe => exact .bind fun _ _ => .some rfl
  | listen | same | unlisten | peek | unsubscribe | resolve => exact .bind fun _ _ => .bind fun _ _ => .some rfl
  | makeScope | record => exact .bind fun _ _ => .bind fun _ _ => .bind fun _ _ => .some rfl

/-- A new sink of the host is greeted alone. -/
theorem idleAnswer_subscribe (name stream : String) (actions : List Command) (limit : Nat) :
    IdleAnswer s.store.fresh (s.answerSubscribe name stream actions limit) := by
  refine .bind fun i => .some (idle_append.2 ⟨fun t ht => ?_, by simp [Idle, Task.IsIdle]⟩)
  obtain ⟨e, -, rfl⟩ := List.mem_map.1 ht
  exact rfl

theorem idle_answer {c : Command} (hc : c.tells = false) (hw : c.writes = false)
    (hn : c.subscribes = true → n = s.store.fresh) : IdleAnswer n (s.answer? c) := by
  cases c with
  | notify =>
    refine .bind fun c => .bind fun _ => .bind fun _ => .some fun t ht => ?_
    obtain rfl := List.mem_singleton.1 ht
    exact ⟨c, rfl⟩
  | subscribe =>
    rw [hn rfl]
    exact idleAnswer_subscribe _ _ _ _
  | _ =>
    intro a ha
    rw [tasks_answer hc hw rfl (by simp) a ha]
    exact idle_nil

theorem idle_execute {c : Command} (hc : c.tells = false) (hw : c.writes = false) :
    Idle s.store.fresh (s.execute c).tasks := by
  unfold execute
  cases ha : s.answer? c with
  | none => exact idle_nil
  | some a => exact idle_answer hc hw (fun _ => rfl) a ha

/-- A command that neither tells the sinks of a subject nor makes one delivers nothing. -/
theorem quiet_execute_of {c : Command} (hc : c.tells = false) (hn : c.subscribes = true → n = s.store.fresh) :
    Quiet n (s.execute c).tasks := by
  have hquiet : QuietAnswer n (s.answer? c) := by
    cases hw : c.writes with
    | false => exact fun a ha => (idle_answer hc hw hn a ha).quiet
    | true =>
      cases c with
      | set => exact .bind fun _ => .bind fun _ => .some (quiet_write _ _ _)
      | assign => exact quietAnswer_assign _ _ _
      | bind => exact quietAnswer_bind _ _ _
      | updateSource => exact quietAnswer_updateSource _ _
      | _ => cases hw
  unfold execute
  cases ha : s.answer? c with
  | none => exact quiet_nil
  | some a => exact hquiet a ha

/-- A command that tells the sinks of no subject delivers nothing, but to a sink that it makes. -/
theorem quiet_execute {c : Command} (hc : c.tells = false) : Quiet s.store.fresh (s.execute c).tasks :=
  quiet_execute_of hc fun _ => rfl

/-- A command that emits no value leaves none to be delivered. -/
theorem due_execute {c : Command} (hc : ∀ stream value, c ≠ .next stream value) (o : ObserverId) :
    due o (s.execute c).tasks = [] := by
  cases c with
  | next stream value => exact absurd rfl (hc stream value)
  | fail stream message =>
    unfold execute
    simp only [answer?, answerFail]
    cases s.named? .stream stream with
    | none => rfl
    | some i => exact due_terminate i (by simp) o
  | complete stream =>
    unfold execute
    simp only [answer?, answerComplete]
    cases s.named? .stream stream with
    | none => rfl
    | some i => exact due_terminate i (by simp) o
  | _ => exact due_of_quiet (quiet_execute rfl) o

end Session

end DataBinding
