import Mathlib.Data.List.Basic
import DataBinding.Proofs.Runs

/-!
# What an act leads to

An act carries out a command, tells a listener or a sink, or does nothing that leads to anything (`Outcome`). What it
leads to is done before what remains of the work under way (`pending_act`). So whatever is due to somebody is due in the
order of a stack: it is told from the front, and what is new comes before what is left (`Stacks`). Over a run, then,
everything is told once that was due or new (`perm_along`), in that order if nothing new comes while something is due
(`along_eq`).
-/

namespace DataBinding

namespace Session

variable {s : Session} {a : Act} {as : List Act}

/-- What remains of the work under way when an act takes up its task. -/
def remaining (s : Session) : Act → List Task
  | .command _ => s.pending
  | .step =>
    match s.pending with
    | [] => []
    | t :: rest => t.left ++ rest

/-- The tasks that an act leads to. -/
def started (s : Session) : Act → List Task
  | .command c => (s.execute c).tasks
  | .step =>
    match s.pending with
    | [] => []
    | t :: rest => ({ s with pending := t.left ++ rest } : Session).ensuing t

/-- What an act comes to, but for the tasks that remain. -/
inductive Outcome (s : Session) (a : Act) : Reaction → Prop
  | command {t c ts} (hc : s.carriedOut? a = some (t, c))
      (hts : ∀ t' ∈ ts, ∃ label reply, t' = Task.report label reply) :
    Outcome s a { session := (t.execute c).session, tasks := (t.execute c).tasks ++ ts }
  | tell {x new previous l ls rest} (ha : a = .step) (hp : s.pending = .notify x new previous (l :: ls) :: rest)
      (hl : s.isPresent l = true) :
    Outcome s a (({ s with pending := .notify x new previous ls :: rest } : Session).tell new previous l)
  | receive {i e k ks rest} (ha : a = .step) (hp : s.pending = .deliver i e (k :: ks) :: rest) :
    Outcome s a (({ s with pending := .deliver i e ks :: rest } : Session).receive e k)
  | still (hc : s.carriedOut? a = none)
      (hl : ∀ x new previous l ls rest, a = .step → s.pending = .notify x new previous (l :: ls) :: rest →
        s.isPresent l = false)
      (hd : ∀ i e k ks rest, a = .step → s.pending ≠ .deliver i e (k :: ks) :: rest) :
    Outcome s a { session := s.act a }

/-- What an act does that takes up a task, if the task is none that leads to others. -/
theorem outcome_still {t : Task} {rest : List Task} (h : Sound (· ∈ s.held) s) (hp : s.pending = t :: rest)
    (hl : ∀ x new previous l ls, t = .notify x new previous (l :: ls) → s.isPresent l = false)
    (hd : ∀ i e k ks, t ≠ .deliver i e (k :: ks)) (hc : ∀ label c cs, t ≠ .perform label (c :: cs)) :
    ∃ r, s.Outcome .step r ∧ s.act .step = r.session.push r.tasks ∧ r.tasks = s.started .step ∧
      r.session.pending = s.remaining .step := by
  have hcarried : s.carriedOut? .step = none := by
    refine Option.eq_none_iff_forall_ne_some.2 fun ⟨u, c⟩ hu => ?_
    obtain ⟨⟨⟩, -⟩ | ⟨label, cs, rest', -, ht, -⟩ := carriedOut?_eq_some hu
    rw [hp] at ht
    exact hc _ _ _ (List.cons.inj ht).1
  have hstarted : ({ s with pending := t.left ++ rest } : Session).ensuing t = [] := by
    unfold ensuing
    split
    next x new previous l ls =>
      refine if_neg fun hpresent => ?_
      have := hl _ _ _ _ _ rfl
      rw [show s.isPresent l = true from hpresent] at this
      cases this
    next => exact absurd rfl (hd _ _ _ _)
    next => exact absurd rfl (hc _ _ _)
    next => rfl
  refine ⟨{ session := s.step }, .still hcarried ?_ ?_, rfl, ?_, ?_⟩
  · intro x new previous l ls rest' _ ht
    rw [hp] at ht
    exact hl _ _ _ _ _ (List.cons.inj ht).1
  · intro i e k ks rest' _ ht
    rw [hp] at ht
    exact hd _ _ _ _ (List.cons.inj ht).1
  · simpa only [started, hp] using hstarted.symm
  · have := pending_doTask h hp
    rw [hstarted, List.nil_append] at this
    simpa only [step, remaining, hp] using this

/-- Each act has an outcome. -/
theorem exists_outcome (h : Sound (· ∈ s.held) s) (a : Act) :
    ∃ r, s.Outcome a r ∧ s.act a = r.session.push r.tasks ∧ r.tasks = s.started a ∧
      r.session.pending = s.remaining a := by
  cases a with
  | command c =>
    have hr : s.Outcome (.command c) { session := (s.execute c).session, tasks := (s.execute c).tasks ++ [] } :=
      .command rfl (by simp)
    rw [List.append_nil] at hr
    exact ⟨_, hr, rfl, rfl, pending_execute h c⟩
  | step =>
    cases hp : s.pending with
    | nil =>
      refine ⟨{ session := s.step }, .still ?_ ?_ ?_, rfl, by simp [started, hp], by simp [step, remaining, hp]⟩
      · simp [carriedOut?, hp]
      · simp [hp]
      · simp [hp]
    | cons t rest =>
      have hleft : Sound (bare _).hand _ := h.take hp t.left fun _ => within_left
      have still := outcome_still h hp
      cases t with
      | notify x new previous ls =>
        cases ls with
        | nil => exact still (by simp) (by simp) (by simp)
        | cons l ls =>
          cases hl : s.isPresent l with
          | true =>
            refine ⟨_, .tell rfl hp hl, ?_, ?_, ?_⟩
            · simp only [act, step, hp, doTask]
              exact if_pos hl
            · simp only [started, hp, ensuing]
              exact (if_pos hl).symm
            · simp only [remaining, hp]
              exact pending_tell hleft new previous l
          | false =>
            have habsent : ∀ x' new' previous' l' ls', Task.notify x new previous (l :: ls) =
                .notify x' new' previous' (l' :: ls') → s.isPresent l' = false := by
              rintro _ _ _ _ _ ⟨⟩
              exact hl
            exact still habsent (by simp) (by simp)
      | deliver i e ks =>
        cases ks with
        | nil => exact still (by simp) (by simp) (by simp)
        | cons k ks =>
          refine ⟨_, .receive rfl hp, by simp only [act, step, hp, doTask]; rfl, by simp only [started, hp]; rfl, ?_⟩
          simp only [remaining, hp]
          exact pending_receive_next h hp
      | perform label cs =>
        cases cs with
        | nil => exact still (by simp) (by simp) (by simp)
        | cons c cs =>
          have hc : s.carriedOut? .step = some ({ s with pending := .perform label cs :: rest }, c) := by
            simp only [carriedOut?, hp]
          have hreport (r : Reply) : ∀ t' ∈ [Task.report label r], ∃ label reply, t' = Task.report label reply := by simp
          have hr := Outcome.command hc
            (hreport (({ s with pending := .perform label cs :: rest } : Session).execute c).reply)
          refine ⟨_, hr, ?_, ?_, ?_⟩
          · simp only [act, step, hp, doTask]
            rfl
          · simp only [started, hp]
            rfl
          · simp only [remaining, hp]
            exact pending_execute hleft c
      | report | keep | adopt => exact still (by simp) (by simp) (by simp)

/-- What an act leads to is done before what remains. -/
theorem pending_act (h : Sound (· ∈ s.held) s) (a : Act) : (s.act a).pending = s.started a ++ s.remaining a := by
  obtain ⟨r, -, hact, htasks, hpending⟩ := exists_outcome h a
  rw [hact, ← htasks, ← hpending]
  rfl

/-! ### Runs act by act -/

/-- It is so at each act of the run. -/
def AtEach (P : Session → Act → Prop) (s : Session) : List Act → Prop
  | [] => True
  | a :: as => P s a ∧ AtEach P (s.act a) as

instance decidableAtEach {P : Session → Act → Prop} [∀ s a, Decidable (P s a)] :
    (s : Session) → (as : List Act) → Decidable (AtEach P s as)
  | _, [] => .isTrue trivial
  | s, a :: as =>
    have := decidableAtEach (P := P) (s.act a) as
    inferInstanceAs (Decidable (P s a ∧ AtEach P (s.act a) as))

theorem AtEach.mono {P Q : Session → Act → Prop} (hPQ : ∀ s a, P s a → Q s a) (h : AtEach P s as) : AtEach Q s as := by
  induction as generalizing s with
  | nil => trivial
  | cons a as ih => exact ⟨hPQ s a h.1, ih h.2⟩

theorem AtEach.and {P Q : Session → Act → Prop} (h : AtEach P s as) (h' : AtEach Q s as) :
    AtEach (fun s a => P s a ∧ Q s a) s as := by
  induction as generalizing s with
  | nil => trivial
  | cons a as ih => exact ⟨⟨h.1, h'.1⟩, ih h.2 h'.2⟩

theorem atEach_append {P : Session → Act → Prop} {bs : List Act} :
    AtEach P s (as ++ bs) ↔ AtEach P s as ∧ AtEach P (s.play as) bs := by
  induction as generalizing s with
  | nil => simp [AtEach]
  | cons a as ih => exact (and_congr_right' ih).trans and_assoc.symm

/-- What is so of each state that keeps an invariant is so at each act. -/
theorem AtEach.of_invariant {I : Session → Prop} {P : Session → Act → Prop} (hstep : ∀ s a, I s → I (s.act a))
    (hP : ∀ s a, I s → P s a) (h : I s) : AtEach P s as := by
  induction as generalizing s with
  | nil => trivial
  | cons a as ih => exact ⟨hP s a h, ih (hstep s a h)⟩

/-- What is so where the state before and the state after are of some kind is so at each act of a run among such. -/
theorem AtEach.of_prefixes {I R : Session → Prop} {P : Session → Act → Prop} (hstep : ∀ s a, I s → I (s.act a))
    (hP : ∀ s a, I s → R s → R (s.act a) → P s a) (h : I s) (hR : ∀ bs, bs <+: as → R (s.play bs)) :
    AtEach P s as := by
  induction as generalizing s with
  | nil => trivial
  | cons a as ih =>
    refine ⟨hP s a h (hR [] List.nil_prefix) (hR [a] (by simp)), ih (hstep s a h) fun bs hbs => ?_⟩
    exact hR (a :: bs) (List.cons_prefix_cons.2 ⟨rfl, hbs⟩)

/-! ### Stacks -/

section

variable {α : Type} {f : Session → Act → List α} {due : Session → List α} {told news : Session → Act → List α}

/-- What the acts of a run give, one after another. -/
def along (f : Session → Act → List α) (s : Session) : List Act → List α
  | [] => []
  | a :: as => f s a ++ along f (s.act a) as

theorem along_eq_nil (h : AtEach (fun s a => f s a = []) s as) : along f s as = [] := by
  induction as generalizing s with
  | nil => rfl
  | cons a as ih => rw [along, h.1, ih h.2, List.append_nil]

/-- What is due is told from the front, and what is new comes before what is left. -/
def Stacks (due : Session → List α) (told news : Session → Act → List α) (s : Session) (a : Act) : Prop :=
  ∃ rest, due s = told s a ++ rest ∧ due (s.act a) = news s a ++ rest

/-- Everything that was due or comes new is told once or is still due. -/
theorem perm_along (h : AtEach (Stacks due told news) s as) :
    (along told s as ++ due (s.play as)).Perm (due s ++ along news s as) := by
  induction as generalizing s with
  | nil => simp [along]
  | cons a as ih =>
    obtain ⟨⟨rest, hdue, hdue'⟩, h⟩ := h
    have hrest : (along told (s.act a) as ++ due (s.play (a :: as))).Perm
        (news s a ++ rest ++ along news (s.act a) as) :=
      hdue' ▸ ih h
    have hswap : (news s a ++ rest).Perm (rest ++ news s a) := List.perm_append_comm
    calc
      along told s (a :: as) ++ due (s.play (a :: as))
        = told s a ++ (along told (s.act a) as ++ due (s.play (a :: as))) := List.append_assoc ..
      _ |>.Perm (told s a ++ (rest ++ news s a ++ along news (s.act a) as)) :=
        (hrest.trans (hswap.append_right _)).append_left _
      _ = due s ++ along news s (a :: as) := by rw [hdue, along]; simp only [List.append_assoc]

/-- If nothing new comes while something is due, all is told in the order in which it came. -/
theorem along_eq (h : AtEach (Stacks due told news) s as)
    (hn : AtEach (fun s a => news s a ≠ [] → due s = []) s as) :
    along told s as ++ due (s.play as) = due s ++ along news s as := by
  induction as generalizing s with
  | nil => simp [along]
  | cons a as ih =>
    obtain ⟨⟨rest, hdue, hdue'⟩, h⟩ := h
    obtain ⟨hfirst, hn⟩ := hn
    have hlater := ih h hn
    rw [hdue'] at hlater
    have hswap : told s a ++ (news s a ++ rest) = told s a ++ rest ++ news s a := by
      by_cases hnews : news s a = []
      · simp [hnews]
      · have hnone := hfirst hnews
        rw [hdue, List.append_eq_nil_iff] at hnone
        simp [hnone]
    calc
      along told s (a :: as) ++ due (s.play (a :: as))
        = told s a ++ (along told (s.act a) as ++ due ((s.act a).play as)) := List.append_assoc ..
      _ = told s a ++ (news s a ++ rest) ++ along news (s.act a) as := by rw [hlater]; simp only [List.append_assoc]
      _ = due s ++ along news s (a :: as) := by rw [hswap, hdue, along]; simp only [List.append_assoc]

end

end Session

end DataBinding
