import DataBinding.Proofs.Runs
import DataBinding.Proofs.Twins.Execute

/-!
# Twins through a run

Between two acts, what is in hand is what the session holds. The work under way of twins is the same but for replies
that are yet to be written down, so the next task of one is that of the other (`Task.eq_of_recast`) or writes down a
reply that is like it. Doing both leads to twins (`Twins.doTask`), and so does each act (`Twins.act`) and each run
(`Twins.play`).
-/

namespace DataBinding

/-- Tasks that differ in nothing but what they write down of a reply. -/
theorem Task.eq_of_recast {ρ : Reply → Reply} {k k' : Task} (h : k'.recast ρ = k.recast ρ)
    (hk : ∀ label reply, k ≠ .report label reply) : k' = k := by
  cases k with
  | report label reply => exact absurd rfl (hk label reply)
  | _ =>
    cases k' with
    | report => cases h
    | _ => exact h

theorem Task.eq_report_of_recast {ρ : Reply → Reply} {k : Task} {label : String} {reply : Reply}
    (h : k.recast ρ = .report label (ρ reply)) : ∃ reply', k = .report label reply' ∧ ρ reply' = ρ reply := by
  cases k with
  | report label' reply' =>
    simp only [Task.recast, Task.report.injEq] at h
    obtain ⟨rfl, h⟩ := h
    exact ⟨reply', rfl, h⟩
  | _ => cases h

namespace Session

variable {E : Effect → Prop} {g g' : Ghost} {s t : Session} {r r' : Reaction} {k k' : Task} {rest rest' : List Task}

/-- The same work under way may be set for both. -/
theorem Twins.setPending (h : Twins g.hand s t) (hs : Sound g.hand s) {ts ts' : List Task}
    (hm : Moves E (g, s) (g', { s with pending := ts }))
    (hts : ts'.map (Task.recast Reply.blank) = ts.map (Task.recast Reply.blank)) :
    Twins g'.hand { s with pending := ts } { t with pending := ts' } := by
  refine h.later hs hm ?_ rfl rfl
  have hrest : ({ t.rest with pending := ts'.map (Task.recast Reply.blank) } : Session) =
      { s.rest with pending := ts.map (Task.recast Reply.blank) } := by
    rw [h.rest, hts]
  exact hrest

/-- Twins that react alike go on as twins, with what they came to on top of the work. -/
theorem ReactAlike.push (hr : ReactAlike g s r r') (hs : Sound g.hand s) :
    Twins (· ∈ (r.session.push r.tasks).held) (r.session.push r.tasks) (r'.session.push r'.tasks) := by
  obtain ⟨g', hm, htasks, htwins, hsame⟩ := hr
  have hs' : Sound g'.hand r.session := hs.moves hm
  have hpending : r'.session.pending.map (Task.recast Reply.blank) = r.session.pending.map (Task.recast Reply.blank) :=
    congrArg Session.pending htwins.rest
  have hpush : Moves (· = .work) (g', r.session) (g', r.session.push r.tasks) := by
    refine .of_move rfl (.work fun k hk => ?_)
    rcases List.mem_append.1 hk with hk | hk
    · exact .inr (htasks k hk)
    · exact .inl hk
  have hall : (r'.tasks ++ r'.session.pending).map (Task.recast Reply.blank) =
      (r.tasks ++ r.session.pending).map (Task.recast Reply.blank) := by
    rw [List.map_append, List.map_append, hsame, hpending]
  have hboth := htwins.setPending hs' hpush hall
  exact hboth.mono (hs'.moves hpush).held

/-- Both take the next task, and put the same back of it. -/
theorem Twins.take (h : Twins (· ∈ s.held) s t) (hs : Sound (· ∈ s.held) s) (hp : s.pending = k :: rest)
    (hrest : rest'.map (Task.recast Reply.blank) = rest.map (Task.recast Reply.blank)) (ts : List Task)
    (hts : ∀ x ∈ ts, ∀ y ∈ sharedInTask x, y ∈ sharedInTask k) :
    Twins (· ∈ ({ s with pending := ts ++ rest } : Session).held) { s with pending := ts ++ rest }
      { t with pending := ts ++ rest' } := by
  have hm := Moves.take hs hp ts hts (fun _ _ _ => False) .step
  exact h.setPending (g := s.bare) hs hm (by rw [List.map_append, List.map_append, hrest])

/-- What is written down of the replies may come to differ. -/
theorem AnswerAlike.report {c : Command} {a a' : Answer} (ha : AnswerAlike c g s a a') (label : String) :
    ReactAlike g s { session := a.session, tasks := a.tasks ++ [.report label a.reply] }
      { session := a'.session, tasks := a'.tasks ++ [.report label a'.reply] } :=
  ha.reaction.andThen (by simp [sharedInTask]) (congrArg (fun reply => [Task.report label reply]) ha.blank)

theorem Twins.isPresent (h : Twins (· ∈ s.held) s t) (l : Listener) : t.isPresent l = s.isPresent l := by
  cases l with
  | binding b => simp only [Session.isPresent, h.bindings]
  | recorder i => exact h.same (fun u => u.isPresent (.recorder i)) fun _ => rfl

/-- Both write down what differs in what is blanked out, if in anything. -/
theorem Twins.note (h : Twins g.hand s t) (hs : Sound g.hand s) {e e' : LogEntry}
    (he : e'.recast Reply.blank = e.recast Reply.blank) : Twins g.hand (s.note e) (t.note e') := by
  refine h.later hs (Moves.note e) ?_ rfl rfl
  have hrest : t.rest.note (e'.recast Reply.blank) = s.rest.note (e.recast Reply.blank) := by rw [h.rest, he]
  unfold Session.rest at hrest ⊢
  rwa [recast_note, recast_note] at hrest

/-- Twins do the next task alike. -/
theorem Twins.doTask (h : Twins (· ∈ s.held) s t) (hs : Sound (· ∈ s.held) s) (hp : s.pending = k :: rest)
    (hk : k'.recast Reply.blank = k.recast Reply.blank)
    (hrest : rest'.map (Task.recast Reply.blank) = rest.map (Task.recast Reply.blank)) :
    Twins (· ∈ (({ s with pending := rest } : Session).doTask k).held) (({ s with pending := rest } : Session).doTask k)
      (({ t with pending := rest' } : Session).doTask k') := by
  have hdrop : Twins (bare _).hand { s with pending := rest } { t with pending := rest' } :=
    h.take hs hp hrest [] (by simp)
  have hsdrop : Sound (bare _).hand { s with pending := rest } := hs.take hp [] (by simp)
  have hleft : Twins (bare _).hand { s with pending := k.left ++ rest } { t with pending := k.left ++ rest' } :=
    h.take hs hp hrest k.left fun _ => within_left
  have hsleft : Sound (bare _).hand { s with pending := k.left ++ rest } := hs.take hp k.left fun _ => within_left
  cases k with
  | notify x new previous ls =>
    obtain rfl := Task.eq_of_recast hk (by simp)
    cases ls with
    | nil => exact hdrop
    | cons l ls =>
      show Twins (· ∈ (if s.isPresent l then _ else _ : Session).held) (if s.isPresent l then _ else _ : Session)
        (if t.isPresent l then _ else _ : Session)
      rw [h.isPresent l]
      by_cases hpresent : s.isPresent l = true
      · rw [if_pos hpresent, if_pos hpresent]
        exact (hleft.tell hsleft new previous l).push hsleft
      · rw [if_neg hpresent, if_neg hpresent]
        exact hleft
  | deliver i e ks =>
    obtain rfl := Task.eq_of_recast hk (by simp)
    cases ks with
    | nil => exact hdrop
    | cons l ks =>
      have he : Within (bare _).hand (sharedInEvent e) := fun x hx =>
        hsleft.outside.pending (t := .deliver i e ks) (by simp [Task.left]) x (List.mem_cons_of_mem _ hx)
      exact (hleft.receive hsleft he l).push hsleft
  | perform label cs =>
    obtain rfl := Task.eq_of_recast hk (by simp)
    cases cs with
    | nil => exact hdrop
    | cons c cs =>
      exact ((hleft.execute hsleft (fun _ => isAlive_iff.2) c).report label).push hsleft
  | report label reply =>
    -- Only here may the tasks differ, namely in what a reply tells of entries.
    obtain ⟨reply', rfl, hreply⟩ := Task.eq_report_of_recast hk
    have hm := Moves.note (g := bare { s with pending := rest }) (s := { s with pending := rest }) (.action label reply)
    have he : (LogEntry.action label reply').recast Reply.blank = (LogEntry.action label reply).recast Reply.blank :=
      congrArg (LogEntry.action label) hreply
    exact (hdrop.note hsdrop he).mono (hsdrop.moves hm).held
  | keep r =>
    obtain rfl := Task.eq_of_recast hk (by simp)
    have hm := Moves.letGo hsdrop r
    exact (hdrop.keep hsdrop (f := fun u => u.letGo r) (fun _ _ _ => recast_letGo r) hm).mono (hsdrop.moves hm).held
  | adopt name i =>
    obtain rfl := Task.eq_of_recast hk (by simp)
    have hm : Moves Silent _ (_, ({ s with pending := rest } : Session).setName name i.ref) :=
      .setNameOf hsdrop (by decide)
    exact (hdrop.keep hsdrop (f := fun u => u.setName name i.ref) (fun _ _ _ => recast_setName name i.ref) hm).mono
      (hsdrop.moves hm).held

/-- Twins do the next task of the work under way alike, if there is one. -/
theorem Twins.step (h : Twins (· ∈ s.held) s t) (hs : Sound (· ∈ s.held) s) :
    Twins (· ∈ s.step.held) s.step t.step := by
  have hpending : t.pending.map (Task.recast Reply.blank) = s.pending.map (Task.recast Reply.blank) :=
    congrArg Session.pending h.rest
  unfold Session.step
  cases hp : s.pending with
  | nil =>
    rw [hp, List.map_nil, List.map_eq_nil_iff] at hpending
    rw [hpending]
    exact h
  | cons k rest =>
    rw [hp, List.map_cons, List.map_eq_cons_iff] at hpending
    obtain ⟨k', rest', hp', hk, hrest⟩ := hpending
    rw [hp']
    exact h.doTask hs hp hk hrest

theorem Twins.act (h : Twins (· ∈ s.held) s t) (hs : Sound (· ∈ s.held) s) (a : Act) :
    Twins (· ∈ (s.act a).held) (s.act a) (t.act a) := by
  cases a with
  | command c => exact (Twins.execute (g := s.bare) h hs (fun _ => isAlive_iff.2) c).reaction.push hs
  | step => exact h.step hs

/-- Twins stay twins for as long as the same happens to both. -/
theorem Twins.play (h : Twins (· ∈ s.held) s t) (hs : Sound (· ∈ s.held) s) (as : List Act) :
    Twins (· ∈ (s.play as).held) (s.play as) (t.play as) := by
  induction as generalizing s t with
  | nil => exact h
  | cons a as ih => exact ih (h.act hs a) (hs.act a)

end Session

end DataBinding
