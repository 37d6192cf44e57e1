import DataBinding.Session.Run
import DataBinding.Proofs.Moves.Execute

/-!
# Runs

A run is a list of acts: the host gives a command, or the work under way goes on by one task. The host may give
commands while work is under way; what is true of all runs is thus true whatever listeners and sinks do in between, and
the states of `Session.runAll` are among those of runs (`exists_play_runAll`). Each act is a sequence of moves
(`moves_act`), and so is a run (`moves_play`): what every move preserves holds at the end of every run.
-/

namespace DataBinding

/-- What happens next in a session. -/
inductive Act
  | command (c : Command)
  | step

/-- What is put back of a task that is taken up. -/
def Task.left : Task → List Task
  | .notify x new previous (_ :: ls) => [.notify x new previous ls]
  | .deliver i e (_ :: ks) => [.deliver i e ks]
  | .perform label (_ :: cs) => [.perform label cs]
  | _ => []

/-- The second task is the first without the one that comes next. -/
inductive Task.Shortens : Task → Task → Prop
  | notify {x new previous l ls} : Shortens (.notify x new previous (l :: ls)) (.notify x new previous ls)
  | deliver {i e k ks} : Shortens (.deliver i e (k :: ks)) (.deliver i e ks)
  | perform {label c cs} : Shortens (.perform label (c :: cs)) (.perform label cs)

theorem Task.shortens_of_mem_left {t t' : Task} (h : t' ∈ t.left) : t.Shortens t' := by
  cases t with
  | notify x new previous ls =>
    cases ls with
    | nil => cases h
    | cons l ls => exact List.mem_singleton.1 h ▸ .notify
  | deliver i e ks =>
    cases ks with
    | nil => cases h
    | cons k ks => exact List.mem_singleton.1 h ▸ .deliver
  | perform label cs =>
    cases cs with
    | nil => cases h
    | cons c cs => exact List.mem_singleton.1 h ▸ .perform
  | report | keep | adopt => cases h

namespace Session

/-- Carries out a command of the host and leaves the tasks that it leads to. -/
def give (s : Session) (c : Command) : Session := (s.execute c).session.push (s.execute c).tasks

def act (s : Session) : Act → Session
  | .command c => s.give c
  | .step => s.step

/-- The session after a run. -/
def play (s : Session) (as : List Act) : Session := as.foldl act s

@[simp] theorem play_nil (s : Session) : s.play [] = s := rfl

@[simp] theorem play_cons (s : Session) (a : Act) (as : List Act) : s.play (a :: as) = (s.act a).play as := rfl

theorem play_append (s : Session) (as bs : List Act) : s.play (as ++ bs) = (s.play as).play bs := List.foldl_append

/-! ### Commands that are carried out to the end are runs -/

theorem exists_play_settle (n : Nat) (s : Session) : ∃ as, settle n s = s.play as := by
  induction n generalizing s with
  | zero => exact ⟨[], rfl⟩
  | succ n ih =>
    unfold settle
    split
    · exact ⟨[], rfl⟩
    · obtain ⟨as, h⟩ := ih s.step
      exact ⟨.step :: as, h⟩

theorem exists_play_run (s : Session) (c : Command) : ∃ as, (s.run c).1 = s.play as := by
  obtain ⟨as, h⟩ := exists_play_settle taskLimit (s.give c)
  exact ⟨.command c :: as, h⟩

theorem exists_play_runAll (s : Session) (cs : List Command) : ∃ as, s.runAll cs = s.play as := by
  unfold runAll
  induction cs generalizing s with
  | nil => exact ⟨[], rfl⟩
  | cons c cs ih =>
    obtain ⟨as, h⟩ := exists_play_run s c
    obtain ⟨bs, h'⟩ := ih (s.run c).1
    exact ⟨as ++ bs, by rw [List.foldl_cons, h', h, play_append]⟩

/-! ### Acts are made of moves -/

/-- The command that an act carries out, and the session that it is carried out in. -/
def carriedOut? (s : Session) : Act → Option (Session × Command)
  | .command c => some (s, c)
  | .step =>
    match s.pending with
    | .perform label (c :: cs) :: rest => some ({ s with pending := .perform label cs :: rest }, c)
    | _ => none

/-- The value that an act emits, and the subject that emits it. -/
def emissionOf? (s : Session) (a : Act) : Option (StreamId × Value) :=
  (s.carriedOut? a).bind fun x => x.1.emission? x.2

/-- What an act may do that others can see. -/
inductive ActAllows (s : Session) (a : Act) : Effect → Prop
  | calm {f} : Calm f → ActAllows s a f
  | work : ActAllows s a .work
  | puts {t c o n} : s.carriedOut? a = some (t, c) → c.writes = true → ActAllows s a (.puts o n)
  /-- A binding that is bound comes to listen. -/
  | bound {t c b} : s.carriedOut? a = some (t, c) → t.bindingOf? c = some b → ActAllows s a (.hears b)
  /-- A binding that is told of a change comes to listen. -/
  | told {x new previous b ls rest} : a = .step → s.pending = .notify x new previous (.binding b :: ls) :: rest →
    s.isPresent (.binding b) = true → ActAllows s a (.hears b)
  /-- A binding that is told of a change writes its target. -/
  | rewrites {x new previous b ls rest o n} : a = .step →
    s.pending = .notify x new previous (.binding b :: ls) :: rest → s.isPresent (.binding b) = true →
    ActAllows s a (.puts o n)
  | emits {i v} : s.emissionOf? a = some (i, v) → ActAllows s a (.emits i v)
  | ends {i e} : ActAllows s a (.ends i e)
  | receives {i e o more rest} : a = .step → s.pending = .deliver i e (.observer o :: more) :: rest →
    ActAllows s a (.receives o e)

variable {g g' : Ghost} {s s' : Session}

/-- What is kept beside a session that is not in the middle of something. -/
def atRest (s : Session) (opened : SystemId → StreamId → ObserverId → Prop) : Ghost := { hand := (· ∈ s.held), opened }

/-- The same where it does not matter who opened what. -/
def bare (s : Session) : Ghost := s.atRest fun _ _ _ => False

theorem Moves.push {E : Effect → Prop} {r : Reaction} (hE : E .work) (hr : ReactsWith E g s r) :
    ∃ g', Moves E (g, s) (g', r.session.push r.tasks) := by
  obtain ⟨g', hm, ht⟩ := hr
  refine ⟨g', hm.trans (.of_move hE (.work fun t hmem => ?_))⟩
  rcases List.mem_append.1 hmem with hmem | hmem
  · exact .inr (ht t hmem)
  · exact .inl hmem

/-- What is put back of a task shares nothing that the task does not share. -/
theorem within_left {t t' : Task} (h : t' ∈ t.left) : ∀ x ∈ sharedInTask t', x ∈ sharedInTask t := by
  cases Task.shortens_of_mem_left h with
  | notify | deliver | perform => simp_all [sharedInTask]

/-- A task is taken from the top, and a part of it is put back. -/
theorem Sound.take (h : Sound (· ∈ s.held) s) {t : Task} {rest : List Task} (hp : s.pending = t :: rest) (ts : List Task)
    (hts : ∀ t' ∈ ts, ∀ x ∈ sharedInTask t', x ∈ sharedInTask t) :
    Sound (· ∈ ({ s with pending := ts ++ rest } : Session).held) { s with pending := ts ++ rest } := by
  have hs : Sound (· ∈ s.held) { s with pending := ts ++ rest } := by
    refine h.aside { h.outside with pending := fun ht' => ?_ } rfl rfl
    rcases List.mem_append.1 ht' with ht' | ht'
    · exact fun x hx => h.outside.pending (by simp [hp]) x (hts _ ht' x hx)
    · exact h.outside.pending (by simp [hp, ht'])
  exact hs.narrow

theorem Moves.take (h : Sound (· ∈ s.held) s) {t : Task} {rest : List Task} (hp : s.pending = t :: rest) (ts : List Task)
    (hts : ∀ t' ∈ ts, ∀ x ∈ sharedInTask t', x ∈ sharedInTask t)
    (opened : SystemId → StreamId → ObserverId → Prop) (a : Act) :
    Moves (s.ActAllows a) (s.atRest opened, s)
      (({ s with pending := ts ++ rest } : Session).atRest opened, { s with pending := ts ++ rest }) := by
  have hwork : Move .work (s.atRest opened, s) (s.atRest opened, { s with pending := ts ++ rest }) := by
    refine .work fun t' ht' => ?_
    rcases List.mem_append.1 ht' with ht' | ht'
    · exact .inr fun x hx => h.outside.pending (by simp [hp]) x (hts t' ht' x hx)
    · exact .inl (by simp [hp, ht'])
  exact (Moves.of_move .work hwork).trans (.of_move (.calm (.inr rfl)) .narrowing)

/-- A command is carried out when it is given, or when it comes next of the actions of a listener or a sink. -/
theorem carriedOut?_eq_some {t : Session} {c : Command} {a : Act} (h : s.carriedOut? a = some (t, c)) :
    (a = .command c ∧ t = s) ∨ ∃ label cs rest, a = .step ∧ s.pending = .perform label (c :: cs) :: rest ∧
      t = { s with pending := .perform label cs :: rest } := by
  cases a with
  | command d =>
    obtain ⟨rfl, rfl⟩ := Prod.mk.inj (Option.some.inj h)
    exact .inl ⟨rfl, rfl⟩
  | step =>
    unfold carriedOut? at h
    dsimp only at h
    split at h
    next label d cs rest hp =>
      obtain ⟨rfl, rfl⟩ := Prod.mk.inj (Option.some.inj h)
      exact .inr ⟨label, cs, rest, rfl, hp, rfl⟩
    · cases h

/-- It is carried out with the work under way set aside. -/
theorem eq_of_carriedOut? {t : Session} {c : Command} {a : Act} (h : s.carriedOut? a = some (t, c)) :
    ∃ ts us, t = { s with pending := ts } ∧ s.act a = (t.execute c).session.push us := by
  obtain ⟨rfl, rfl⟩ | ⟨label, cs, rest, rfl, hp, rfl⟩ := carriedOut?_eq_some h
  · exact ⟨_, _, rfl, rfl⟩
  · exact ⟨_, _, rfl, by simp only [act, step, hp, doTask]; rfl⟩

theorem sound_carriedOut? (hsound : Sound (· ∈ s.held) s) {t : Session} {c : Command} {a : Act}
    (h : s.carriedOut? a = some (t, c)) : Sound (· ∈ t.held) t := by
  obtain ⟨-, rfl⟩ | ⟨label, cs, rest, -, hp, rfl⟩ := carriedOut?_eq_some h
  · exact hsound
  · exact hsound.take hp [.perform label cs] (by simp [sharedInTask])

theorem Allows.act {t : Session} {c : Command} {a : Act} (hc : s.carriedOut? a = some (t, c)) {f : Effect}
    (hf : t.Allows c f) : s.ActAllows a f := by
  cases hf with
  | calm hf => exact .calm hf
  | puts hw => exact .puts hc hw
  | hears hb => exact .bound hc hb
  | emits hv => exact .emits (by rw [emissionOf?, hc]; exact hv)
  | ends => exact .ends

theorem reacts_execute (h : Sound (· ∈ s.held) s) (opened : SystemId → StreamId → ObserverId → Prop) (c : Command) :
    AnswersWith (s.Allows c) (s.atRest opened) s (s.execute c) :=
  answers_execute h (fun _ => isAlive_iff.2) c

/-- Doing a task is a sequence of moves. -/
theorem moves_doTask (h : Sound (· ∈ s.held) s) (opened : SystemId → StreamId → ObserverId → Prop) {t : Task}
    {rest : List Task} (hp : s.pending = t :: rest) :
    ∃ g, Moves (s.ActAllows .step) (s.atRest opened, s) (g, ({ s with pending := rest } : Session).doTask t) := by
  have hdrop := Moves.take h hp [] (by simp) opened .step
  have hsound : Sound (({ s with pending := rest } : Session).atRest opened).hand { s with pending := rest } :=
    h.take hp [] (by simp)
  cases t with
  | notify x new previous ls =>
    cases ls with
    | nil => exact ⟨_, hdrop⟩
    | cons l ls =>
      have hm := Moves.take h hp [.notify x new previous ls] (by simp [sharedInTask]) opened .step
      have hs : Sound (({ s with pending := [.notify x new previous ls] ++ rest } : Session).atRest opened).hand _ :=
        h.take hp [.notify x new previous ls] (by simp [sharedInTask])
      simp only [doTask]
      split
      next hpresent =>
        have hallows : ∀ f, Telling l f → s.ActAllows .step f := by
          rintro f (hf | ⟨b, rfl, rfl | ⟨o, n, rfl⟩⟩)
          · exact .calm hf
          · exact .told rfl hp hpresent
          · exact .rewrites rfl hp hpresent
        obtain ⟨g, hm'⟩ := Moves.push .work ((reacts_tell hs new previous l).mono hallows)
        exact ⟨g, hm.trans hm'⟩
      · exact ⟨_, hm⟩
  | deliver i e ks =>
    cases ks with
    | nil => exact ⟨_, hdrop⟩
    | cons k ks =>
      have hm := Moves.take h hp [.deliver i e ks] (by simp [sharedInTask]) opened .step
      have hs : Sound (({ s with pending := [.deliver i e ks] ++ rest } : Session).atRest opened).hand _ :=
        h.take hp [.deliver i e ks] (by simp [sharedInTask])
      have he : Within (({ s with pending := [.deliver i e ks] ++ rest } : Session).atRest opened).hand (sharedInEvent e) := by
        intro x hx
        exact hs.outside.pending (t := .deliver i e ks) (by simp) x (List.mem_cons_of_mem _ hx)
      have hallows : ∀ f, Reception k e f → s.ActAllows .step f := by
        rintro f (hf | ⟨o, rfl, rfl⟩)
        · exact .calm (.inl hf)
        · exact .receives rfl hp
      obtain ⟨g, hm'⟩ := Moves.push .work ((reacts_receive hs he k).mono hallows)
      exact ⟨g, hm.trans hm'⟩
  | perform label cs =>
    cases cs with
    | nil => exact ⟨_, hdrop⟩
    | cons c cs =>
      have hm := Moves.take h hp [.perform label cs] (by simp [sharedInTask]) opened .step
      have hs : Sound (({ s with pending := [.perform label cs] ++ rest } : Session).atRest opened).hand _ :=
        h.take hp [.perform label cs] (by simp [sharedInTask])
      have hc : s.carriedOut? .step = some ({ s with pending := [.perform label cs] ++ rest }, c) := by
        simp only [carriedOut?, hp]
        rfl
      have hreport : ∀ t ∈ [Task.report label (({ s with pending := .perform label cs :: rest } : Session).execute c).reply],
          sharedInTask t = [] := by simp [sharedInTask]
      have hr := (reacts_execute hs opened c).mono fun f => Allows.act hc
      obtain ⟨g, hm'⟩ := Moves.push .work (hr.andThen hreport)
      exact ⟨g, hm.trans hm'⟩
  | report label reply => exact ⟨_, hdrop.trans ((Moves.note _).mono fun f hf => .calm (.inl hf))⟩
  | keep r => exact ⟨_, hdrop.trans ((Moves.letGo hsound r).mono fun f hf => .calm (.inl hf))⟩
  | adopt name k => exact ⟨_, hdrop.trans ((Moves.setNameOf hsound (by decide)).mono fun f hf => .calm (.inl hf))⟩

/-- An act is a sequence of moves. -/
theorem moves_act (h : Sound (· ∈ s.held) s) (opened : SystemId → StreamId → ObserverId → Prop) (a : Act) :
    ∃ g, Moves (s.ActAllows a) (s.atRest opened, s) (g, s.act a) := by
  cases a with
  | command c => exact Moves.push .work ((reacts_execute h opened c).mono fun f => Allows.act rfl)
  | step =>
    simp only [act, step]
    split
    · exact ⟨_, .refl⟩
    next t rest hp => exact moves_doTask h opened hp

/-! ### The work under way -/

/-- What the next task does if it tells a binding. -/
theorem step_of_notify {w : Source} {new previous : Value} {ls : List Listener}
    {rest : List Task} {b : BindingId} {x : Binding} (hp : s.pending = .notify w new previous (.binding b :: ls) :: rest)
    (hx : s.bindings.get? b = some x) :
    s.step = (({ s with pending := .notify w new previous ls :: rest } : Session).refresh b).session.push
      ((({ s with pending := .notify w new previous ls :: rest } : Session).refresh b).tasks ++ [.keep b.ref]) := by
  have hpresent : ({ s with pending := .notify w new previous ls :: rest } : Session).isPresent (.binding b) = true := by
    simp [isPresent, Table.contains, hx]
  simp only [step, hp, doTask]
  exact if_pos hpresent

/-- Only the work under way is changed by moves of that kind. -/
theorem Move.pending {e : Effect} {a b : Ghost × Session} (hm : Move e a b) (he : e ≠ .work) :
    b.2.pending = a.2.pending := by
  cases hm with
  | work => exact absurd rfl he
  | destroying | erasing | releasing => exact close_pending ..
  | _ => rfl

theorem Moves.pending {E : Effect → Prop} {a b : Ghost × Session} (hm : Moves E a b) (hE : ¬E .work) :
    b.2.pending = a.2.pending := by
  induction hm with
  | refl => rfl
  | tail _ hlast ih =>
    obtain ⟨e, he, hlast⟩ := hlast
    rw [hlast.pending fun hw => hE (hw ▸ he), ih]

theorem not_silent_work : ¬Silent .work := by simp [Silent]

theorem not_calm_work : ¬Calm .work := by simp [Calm, Silent]

theorem ReactsWith.pending {E : Effect → Prop} {r : Reaction} (hE : ¬E .work) (hr : ReactsWith E g s r) :
    r.session.pending = s.pending := by
  obtain ⟨g', hm, -⟩ := hr
  exact Moves.pending hm hE

theorem pending_tell (h : Sound (· ∈ s.held) s) (new previous : Value) (l : Listener) :
    (s.tell new previous l).session.pending = s.pending := by
  have hr := reacts_tell (g := s.bare) h new previous l
  refine hr.pending ?_
  rintro (hw | ⟨b, -, hw | ⟨o, n, hw⟩⟩)
  · exact not_calm_work hw
  all_goals cases hw

theorem pending_receive (h : Sound (· ∈ s.held) s) {e : StreamEvent} (he : Within (· ∈ s.held) (sharedInEvent e))
    (k : Sink) : (s.receive e k).session.pending = s.pending := by
  have hr := reacts_receive (g := s.bare) h he k
  refine hr.pending fun hw => ?_
  rcases hw with hw | ⟨o, -, hw⟩
  · exact not_silent_work hw
  · cases hw

/-- A delivery that goes on to the next sink. -/
theorem pending_receive_next (h : Sound (· ∈ s.held) s) {j : StreamId} {e : StreamEvent} {k : Sink} {ks : List Sink}
    {rest : List Task} (hp : s.pending = .deliver j e (k :: ks) :: rest) :
    (({ s with pending := .deliver j e ks :: rest } : Session).receive e k).session.pending =
      .deliver j e ks :: rest := by
  have hs : Sound (· ∈ ({ s with pending := .deliver j e ks :: rest } : Session).held) _ :=
    h.take hp [.deliver j e ks] (by simp [sharedInTask])
  refine pending_receive hs (fun x hx => ?_) k
  exact hs.outside.pending (t := .deliver j e ks) (by simp) x (List.mem_cons_of_mem _ hx)

theorem pending_execute (h : Sound (· ∈ s.held) s) (c : Command) : (s.execute c).session.pending = s.pending := by
  have hr := reacts_execute h (fun _ _ _ => False) c
  refine hr.pending fun hw => ?_
  cases hw with
  | calm hw => exact not_calm_work hw

/-- The tasks that a task leads to, besides what is put back of it. -/
def ensuing (s : Session) : Task → List Task
  | .notify _ new previous (l :: _) => if s.isPresent l then (s.tell new previous l).tasks else []
  | .deliver _ e (k :: _) => (s.receive e k).tasks
  | .perform label (c :: _) => (s.execute c).tasks ++ [.report label (s.execute c).reply]
  | _ => []

/-- What a task leads to is done before all the rest. -/
theorem pending_doTask (h : Sound (· ∈ s.held) s) {t : Task} {rest : List Task} (hp : s.pending = t :: rest) :
    (({ s with pending := rest } : Session).doTask t).pending =
      ({ s with pending := t.left ++ rest } : Session).ensuing t ++ (t.left ++ rest) := by
  have hdrop : Sound (bare _).hand _ := h.take hp [] (by simp)
  have hleft : Sound (bare _).hand _ := h.take hp t.left fun _ => within_left
  cases t with
  | notify x new previous ls =>
    cases ls with
    | nil => rfl
    | cons l ls =>
      show (if s.isPresent l then _ else _ : Session).pending = (if s.isPresent l then _ else []) ++ _
      by_cases hpresent : s.isPresent l = true
      · rw [if_pos hpresent, if_pos hpresent]
        exact congrArg (_ ++ ·) (pending_tell hleft new previous l)
      · rw [if_neg hpresent, if_neg hpresent]
        rfl
  | deliver j e ks =>
    cases ks with
    | nil => rfl
    | cons k ks => exact congrArg (_ ++ ·) (pending_receive_next h hp)
  | perform label cs =>
    cases cs with
    | nil => rfl
    | cons c cs => exact congrArg (_ ++ ·) (pending_execute hleft c)
  | report label reply => rfl
  | keep r => exact Moves.pending (Moves.letGo hdrop r) not_silent_work
  | adopt name k =>
    have hm : Moves Silent _ (_, ({ s with pending := rest } : Session).setName name ⟨.sink, k.number⟩) :=
      .setNameOf hdrop (by decide)
    exact hm.pending not_silent_work

/-! ### All that is in reach is in hand throughout -/

theorem Sound.act (h : Sound (· ∈ s.held) s) (a : Act) : Sound (· ∈ (s.act a).held) (s.act a) := by
  obtain ⟨g, hm⟩ := moves_act h (fun _ _ _ => False) a
  have hs : Sound g.hand (s.act a) := h.moves hm
  exact hs.narrow

theorem Sound.play (h : Sound (· ∈ s.held) s) (as : List Act) : Sound (· ∈ (s.play as).held) (s.play as) := by
  induction as generalizing s with
  | nil => exact h
  | cons a as ih => exact ih (h.act a)

/-- A run is a sequence of moves. -/
theorem moves_play (h : Sound (· ∈ s.held) s) (opened : SystemId → StreamId → ObserverId → Prop) (bs : List Act) :
    ∃ g, Moves (fun _ => True) (s.atRest opened, s) (g, s.play bs) := by
  induction bs using List.reverseRecOn with
  | nil => exact ⟨_, .refl⟩
  | append_singleton bs a ih =>
    obtain ⟨g, hm⟩ := ih
    obtain ⟨g', hm'⟩ := moves_act (h.play bs) g.opened a
    have hnarrow : Moves (fun _ => True) (g, s.play bs) ((s.play bs).atRest g.opened, s.play bs) :=
      .of_move trivial .narrowing
    rw [play_append]
    exact ⟨g', hm.trans (hnarrow.trans (hm'.mono fun _ _ => trivial))⟩

theorem sound_empty : Sound (· ∈ ({} : Session).held) {} where
  outside :=
    { names := fun h => by cases h
      bindings := fun h => by cases h
      records := fun h => by cases h
      observers := fun h => by cases h
      pending := fun h => by cases h }
  closed h := by cases h
  held _ h := h
  known h := by cases h
  old {x} h := by cases x <;> cases h
  systemsOld h := by cases h
  tame h := by cases h

/-- The first system is made like any other. -/
theorem moves_initial : Moves Silent (bare {}, {}) (bare {}, initial) := .newSystem sound_empty "main" {}

theorem sound_initial : Sound (· ∈ initial.held) initial := by
  have hs : Sound (· ∈ ({} : Session).held) initial := sound_empty.moves moves_initial
  exact hs.narrow

end Session

end DataBinding
