import DataBinding.Proofs.ChangePairs

/-!
# One call of a notification

A source that is notified of a change forgets the registrations of those who are gone, and then tells the others in the
order in which they registered. While a listener has its turn, anything may happen: listeners come and go, and sources
are notified again, this one too. The call is then found below that work, where it stays as it is (`suffix_act`). So it
is enough to look at the acts at which the call itself comes next (`act_of_call`): each gives one listener its turn, or
is the end of the call. `notify_fans_out` draws the conclusion for a whole run, in which the host and the listeners do
whatever they do.
-/

namespace DataBinding

/-- The task tells listeners of a change. -/
def Task.IsNotify : Task → Prop
  | .notify .. => True
  | _ => False

namespace Session

variable {s t u : Session} {a : Act} {as bs cs : List Act} {x : Source} {new previous : Value} {l : Listener}
  {ls : List Listener} {ts below : List Task} {g : Ghost} {E : Effect → Prop} {n : Nat}

/-! ### Acts make one call, if any -/

/-- The change has nobody told of anything, or comes to its end with one call of a notification. -/
inductive Calls : Reaction → Prop
  | none {r : Reaction} (h : ∀ t ∈ r.tasks, ¬t.IsNotify) : Calls r
  | one {t : Session} {x : Source} {new previous : Value} {ts : List Task} (h : ∀ t ∈ ts, ¬t.IsNotify) :
    Calls ((t.notify x new previous).andThen ts)

theorem Calls.andThen {r : Reaction} (hr : Calls r) (h : ∀ t ∈ ts, ¬t.IsNotify) : Calls (r.andThen ts) := by
  cases hr with
  | none hr => exact .none fun t ht => (List.mem_append.1 ht).elim (hr t) (h t)
  | @one t x new previous us hus =>
    have hboth : ∀ t ∈ us ++ ts, ¬t.IsNotify := fun t ht => (List.mem_append.1 ht).elim (hus t) (h t)
    have hone : Calls ((t.notify x new previous).andThen (us ++ ts)) := .one hboth
    simpa only [Reaction.andThen, List.append_assoc] using hone

theorem calls_notify (t : Session) (x : Source) (new previous : Value) : Calls (t.notify x new previous) :=
  andThen_nil (t.notify x new previous) ▸ .one (by simp)

theorem calls_write (s : Session) (o : ObjectId) (n : String) (v : Value) : Calls (s.write o n v) := by
  unfold write
  dsimp only
  split
  · exact calls_notify ..
  · exact .none (by simp)

theorem Concludes.calls {r : Reaction} (hr : Concludes E g s r) : Calls r := by
  obtain ⟨g', t, q, rs, -, hq, rfl⟩ := hr
  have hkeeps : ∀ t ∈ rs.map Task.keep, ¬t.IsNotify := by simp [Task.IsNotify]
  refine .andThen ?_ hkeeps
  cases hq with
  | still => exact .none (by simp)
  | write => exact calls_write ..

theorem calls_tell (hsound : Sound (· ∈ s.held) s) (new previous : Value) (l : Listener) :
    Calls (s.tell new previous l) := by
  cases l with
  | binding b => exact ((concludes_refresh (g := s.bare) hsound b).keep b.ref).calls
  | recorder i =>
    simp only [tell]
    split
    · exact .none (by simp)
    · split <;> exact .none (by simp [Task.IsNotify])

theorem calls_receive (s : Session) (e : StreamEvent) (k : Sink) : Calls (s.receive e k) := by
  cases k with
  | observer o =>
    simp only [receive]
    split
    · exact .none (by simp)
    · split
      · exact .none (by simp)
      · exact (calls_notify ..).andThen (by simp [Task.IsNotify])
  | handler k =>
    simp only [receive]
    split
    · exact .none (by simp)
    · split <;> exact .none (by simp [Task.IsNotify])

/-- A command that writes no property and has no subject tell its sinks leaves nothing to be told, unless the host
notifies a collection by hand. -/
theorem calls_answer {c : Command} (hc : c.tells = false) (hw : c.writes = false) :
    Ensures (fun a => Calls { session := a.session, tasks := a.tasks }) (s.answer? c) := by
  cases c with
  | notify => exact .bind fun _ _ => .bind fun _ _ => .bind fun _ _ => .some (calls_notify ..)
  | subscribe =>
    refine .bind fun _ _ => .some (.none ?_)
    simp [or_imp, forall_and, Task.IsNotify]
  | _ => exact fun a ha => .none (by simp [tasks_answer hc hw rfl (by simp) a ha])

theorem calls_execute (hsound : Sound (· ∈ s.held) s) (c : Command) :
    Calls { session := (s.execute c).session, tasks := (s.execute c).tasks } := by
  cases hw : c.writes with
  | true => exact (concludes_execute (g := s.bare) hsound (fun _ => isAlive_iff.2) hw).calls
  | false =>
    cases hc : c.tells with
    | false =>
      unfold execute
      cases ha : s.answer? c with
      | none => exact .none (by simp)
      | some a => exact calls_answer hc hw a ha
    | true =>
      refine .none fun t ht => ?_
      cases he : s.announcement? c with
      | some e =>
        obtain ⟨y, -, htasks, -⟩ := execute_of_announcement? (g := s.bare) hsound he
        obtain rfl := List.mem_singleton.1 (htasks ▸ ht)
        exact id
      | none =>
        obtain ⟨j, d, rfl⟩ := execute_of_announcement?_none (g := s.bare) hsound hc he t ht
        exact id

theorem Outcome.calls (hsound : Sound (· ∈ s.held) s) {r : Reaction} (hr : s.Outcome a r) : Calls r := by
  cases hr with
  | @command t c ts hc hts =>
    refine (calls_execute (sound_carriedOut? hsound hc) c).andThen fun t ht => ?_
    obtain ⟨label, reply, rfl⟩ := hts t ht
    exact id
  | @tell y v w l ls rest ha hp hl =>
    exact calls_tell (hsound.take hp [.notify y v w ls] (by simp [sharedInTask])) v w l
  | receive => exact calls_receive ..
  | still => exact .none (by simp)

/-- By the act the source is notified of the change in the session `t`, which leaves it to be told, and then `ts` to be
done. -/
def Notified (s : Session) (a : Act) (t : Session) (x : Source) (new previous : Value) (ts : List Task) : Prop :=
  s.act a = (t.notify x new previous).session.push ((t.notify x new previous).tasks ++ ts)

/-- The registrations with a source whose listeners are there. -/
def registered (s : Session) (x : Source) : List (Nat × Listener) :=
  (s.store.listeners x).entries.filter fun e => s.isPresent e.2

theorem tasks_notify (t : Session) (x : Source) (new previous : Value) :
    (t.notify x new previous).tasks = [.notify x new previous ((t.registered x).map (·.2))] := by
  simp only [notify, Listeners.audience, (Store.relists_sweep t.store t.isPresent x).entries, if_true, registered]

/-- Whatever an act leaves to be told goes back to a call. -/
theorem exists_notified (hsound : Sound (· ∈ s.held) s) (h : .notify x new previous ls ∈ s.started a) :
    ∃ t ts, s.Notified a t x new previous ts ∧ s.started a = (t.notify x new previous).tasks ++ ts ∧
      ∀ t ∈ ts, ¬t.IsNotify := by
  obtain ⟨r, hr, hact, htasks, -⟩ := exists_outcome hsound a
  rw [← htasks] at h ⊢
  cases hr.calls hsound with
  | none hnone => exact absurd trivial (hnone _ h)
  | @one t y v w ts hts =>
    rcases List.mem_append.1 h with h | h
    · obtain ⟨rfl, rfl, rfl, -⟩ := Task.notify.inj (List.mem_singleton.1 h)
      exact ⟨t, ts, hact, rfl, hts⟩
    · exact absurd trivial (hts _ h)

/-! ### Work that is set aside -/

/-- Of the work under way, what is below the next task stays where it is. -/
theorem suffix_act (hsound : Sound (· ∈ s.held) s) (h : ts <:+ s.pending) (hlt : ts.length < s.pending.length)
    (a : Act) : ts <:+ (s.act a).pending := by
  rw [pending_act hsound]
  refine List.IsSuffix.trans ?_ (List.suffix_append ..)
  cases a with
  | command c => exact h
  | step =>
    obtain ⟨above, habove⟩ := h
    cases above with
    | nil => simp [← habove] at hlt
    | cons t above =>
      simp only [remaining, ← habove, List.cons_append]
      exact (List.suffix_append above ts).trans (List.suffix_append ..)

/-- More is under way than `n` tasks. -/
def Busy (n : Nat) (s : Session) (_ : Act) : Prop := n < s.pending.length

instance (n : Nat) (s : Session) (a : Act) : Decidable (Busy n s a) := inferInstanceAs (Decidable (n < s.pending.length))

theorem suffix_play (hsound : Sound (· ∈ s.held) s) (h : ts <:+ s.pending) (hbusy : AtEach (Busy ts.length) s bs) :
    ts <:+ (s.play bs).pending := by
  induction bs generalizing s with
  | nil => exact h
  | cons a bs ih => exact ih (hsound.act a) (suffix_act hsound h hbusy.1 a) hbusy.2

/-! ### Turns -/

/-- Whose turn it is in the call that has `n` tasks below it, and whether the listener is still there. -/
def turnAt (n : Nat) (s : Session) : Act → List (Listener × Bool)
  | .command _ => []
  | .step =>
    match s.pending with
    | .notify _ _ _ (l :: _) :: below => if below.length = n then [(l, s.isPresent l)] else []
    | _ => []

/-- Who is told something by that call, the new value and the previous one. -/
def toldAt (n : Nat) (s : Session) : Act → List (Listener × Value × Value)
  | .command _ => []
  | .step =>
    match s.pending with
    | .notify _ new previous (l :: _) :: below =>
      if below.length = n ∧ s.isPresent l = true then [(l, new, previous)] else []
    | _ => []

/-- If the call comes next, it either is over, and nothing but that happens; or its next listener is told, or has gone
and nothing happens. -/
def Proceeds (x : Source) (new previous : Value) (below : List Task) (s : Session) (a : Act) : Prop :=
  a = .step → ∀ ls, s.pending = .notify x new previous ls :: below →
    match ls with
    | [] => s.act a = { s with pending := below }
    | l :: ls =>
      let t : Session := { s with pending := .notify x new previous ls :: below }
      s.act a = if s.isPresent l then (t.tell new previous l).session.push (t.tell new previous l).tasks else t

theorem proceeds (x : Source) (new previous : Value) (below : List Task) (s : Session) (a : Act) :
    Proceeds x new previous below s a := by
  rintro rfl ls hp
  cases ls with
  | nil => simp only [act, step, hp, doTask]
  | cons l ls =>
    simp only [act, step, hp, doTask]
    rfl

/-- What an act does to a call that has yet to tell the listeners `ls`. -/
inductive CallStep (x : Source) (new previous : Value) (below : List Task) (s : Session) (a : Act) :
    List Listener → Prop
  /-- The next one has its turn. -/
  | turn {l : Listener} {ls : List Listener} (hturn : turnAt below.length s a = [(l, s.isPresent l)])
      (htold : toldAt below.length s a = if s.isPresent l then [(l, new, previous)] else [])
      (hafter : .notify x new previous ls :: below <:+ (s.act a).pending) : CallStep x new previous below s a (l :: ls)
  /-- Nobody is left, and the call is over. -/
  | ended (hturn : turnAt below.length s a = []) (htold : toldAt below.length s a = [])
      (hafter : (s.act a).pending = below) : CallStep x new previous below s a []
  /-- Something else happens, and the call waits. -/
  | elsewhere {ls : List Listener} (hturn : turnAt below.length s a = []) (htold : toldAt below.length s a = [])
      (hafter : .notify x new previous ls :: below <:+ (s.act a).pending) : CallStep x new previous below s a ls

theorem act_of_call (hsound : Sound (· ∈ s.held) s) (h : .notify x new previous ls :: below <:+ s.pending) (a : Act) :
    CallStep x new previous below s a ls := by
  cases a with
  | command c =>
    refine .elsewhere rfl rfl ?_
    rw [pending_act hsound]
    exact h.trans (List.suffix_append ..)
  | step =>
    obtain ⟨above, habove⟩ := h
    cases above with
    | nil =>
      have hpending := pending_act hsound .step
      simp only [remaining, ← habove, List.nil_append] at hpending
      cases ls with
      | nil =>
        have hstarted : s.started .step = [] := by simp only [started, ← habove]; rfl
        exact .ended (by simp [turnAt, ← habove]) (by simp [toldAt, ← habove]) (by rw [hpending, hstarted]; rfl)
      | cons l ls =>
        refine .turn (by simp [turnAt, ← habove]) (by simp [toldAt, ← habove]) ?_
        rw [hpending]
        exact List.suffix_append ..
    | cons t above =>
      have hlt : (Task.notify x new previous ls :: below).length < s.pending.length := by
        rw [← habove]
        simp only [List.cons_append, List.length_cons, List.length_append]
        omega
      have hdeep : below.length < (above ++ .notify x new previous ls :: below).length := by simp; omega
      refine .elsewhere ?_ ?_ (suffix_act hsound ⟨_, habove⟩ hlt .step)
      · unfold turnAt
        simp only [← habove, List.cons_append]
        split
        next heq => exact if_neg (by rw [← (List.cons.inj heq).2]; exact Nat.ne_of_gt hdeep)
        · rfl
      · unfold toldAt
        simp only [← habove, List.cons_append]
        split
        next heq => exact if_neg fun h => Nat.ne_of_gt hdeep (by rw [(List.cons.inj heq).2]; exact h.1)
        · rfl

/-- How a call goes on that has yet to tell the listeners `ls`, while the rest of the work under way is `below`. -/
structure FansOut (x : Source) (new previous : Value) (below : List Task) (ls : List Listener) (s : Session)
    (bs : List Act) : Prop where
  /-- The listeners have their turns in that order, and nobody else has one. -/
  order : (along (turnAt below.length) s bs).map (·.1) <+: ls
  /-- When the call is over, all of them have had their turns. -/
  complete : (s.play bs).pending.length ≤ below.length →
    (along (turnAt below.length) s bs).map (·.1) = ls ∧ (s.play bs).pending = below
  /-- Whoever is there at his turn is told the two values of the call, once. -/
  told : along (toldAt below.length) s bs =
    ((along (turnAt below.length) s bs).filter (·.2)).map fun p => (p.1, new, previous)
  /-- By itself the call does no more than that. -/
  proceeds : AtEach (Proceeds x new previous below) s bs

theorem fansOut_play (hsound : Sound (· ∈ s.held) s) (h : .notify x new previous ls :: below <:+ s.pending)
    (hbusy : AtEach (Busy below.length) s bs) : FansOut x new previous below ls s bs := by
  have hproceeds : AtEach (Proceeds x new previous below) s bs :=
    .of_invariant (I := fun _ => True) (fun _ _ _ => trivial) (fun s a _ => proceeds x new previous below s a) trivial
  induction bs generalizing s ls with
  | nil =>
    have hlong : below.length < s.pending.length := Nat.lt_of_lt_of_le (Nat.lt_succ_self _) h.length_le
    exact ⟨List.nil_prefix, fun hle => absurd hle (Nat.not_le_of_lt hlong), rfl, hproceeds⟩
  | cons a bs ih =>
    have hnext {ks : List Listener} (hks : .notify x new previous ks :: below <:+ (s.act a).pending) :
        FansOut x new previous below ks (s.act a) bs :=
      ih (hsound.act a) hks hbusy.2 hproceeds.2
    cases act_of_call hsound h a with
    | @turn l ls hturn htold hafter =>
      have hrest := hnext hafter
      refine ⟨?_, fun hle => ?_, ?_, hproceeds⟩
      · simpa [along, hturn] using hrest.order
      · simpa [along, hturn] using hrest.complete hle
      · rw [along, along, htold, hturn, hrest.told]
        cases hl : s.isPresent l <;> simp
    | ended hturn htold hafter =>
      -- the work of the call is done, so the run ends here
      cases bs with
      | nil => exact ⟨by simp [along, hturn], fun _ => ⟨by simp [along, hturn], hafter⟩, by simp [along, hturn, htold],
          hproceeds⟩
      | cons b bs =>
        have hlt : below.length < (s.act a).pending.length := hbusy.2.1
        rw [hafter] at hlt
        exact absurd hlt (Nat.lt_irrefl _)
    | elsewhere hturn htold hafter =>
      have hrest := hnext hafter
      refine ⟨?_, fun hle => ?_, ?_, hproceeds⟩
      · simpa [along, hturn] using hrest.order
      · simpa [along, hturn] using hrest.complete hle
      · simpa [along, hturn, htold] using hrest.told

/-! ### Calls come to an end -/

/-- In whatever way the call may come to tell one of its listeners, what that listener does can be done to the end. -/
def ListenersReturn (x : Source) (new previous : Value) (below : List Task) (s : Session) : Prop :=
  ∀ cs l ls, AtEach (Busy below.length) s cs → (s.play cs).pending = .notify x new previous (l :: ls) :: below →
    (s.play cs).isPresent l = true →
      ∃ ds, AtEach (Busy (below.length + 1)) (s.play (cs ++ [.step])) ds ∧
        (s.play (cs ++ .step :: ds)).pending.length ≤ below.length + 1

theorem AtEach.busy_mono {m : Nat} (hmn : m ≤ n) (h : AtEach (Busy n) s bs) : AtEach (Busy m) s bs :=
  h.mono fun _ _ => Nat.lt_of_le_of_lt hmn

/-- A call is over after finitely many turns, if each of its listeners comes to an end. -/
theorem exists_over (hsound : Sound (· ∈ s.held) s) (hreturn : ListenersReturn x new previous below s)
    (hcs : AtEach (Busy below.length) s cs) (hp : (s.play cs).pending = .notify x new previous ls :: below) :
    ∃ bs, AtEach (Busy below.length) s bs ∧ (s.play bs).pending = below := by
  have hbusy {ds : List Act} {ks : List Listener} (hds : (s.play ds).pending = .notify x new previous ks :: below) :
      AtEach (Busy below.length) (s.play ds) [.step] := ⟨by simp [Busy, hds], trivial⟩
  induction ls generalizing cs with
  | nil =>
    refine ⟨cs ++ [.step], atEach_append.2 ⟨hcs, hbusy hp⟩, ?_⟩
    rw [play_append, play_cons, play_nil, proceeds x new previous below _ .step rfl [] hp]
  | cons l ls ih =>
    have hturn := proceeds x new previous below _ .step rfl (l :: ls) hp
    have hstep : AtEach (Busy below.length) s (cs ++ [.step]) := atEach_append.2 ⟨hcs, hbusy hp⟩
    cases hl : (s.play cs).isPresent l with
    | false =>
      refine ih hstep ?_
      rw [play_append, play_cons, play_nil, hturn, hl]
      rfl
    | true =>
      obtain ⟨ds, hds, hle⟩ := hreturn cs l ls hcs hp hl
      have hsplit : cs ++ .step :: ds = (cs ++ [.step]) ++ ds := by simp
      have hall : AtEach (Busy below.length) s (cs ++ .step :: ds) := by
        rw [hsplit]
        exact atEach_append.2 ⟨hstep, hds.busy_mono (Nat.le_succ _)⟩
      refine ih hall ?_
      -- the listener has left the call as it was
      have hsuffix : .notify x new previous ls :: below <:+ (s.play (cs ++ [.step])).pending := by
        rw [play_append, play_cons, play_nil, pending_act (hsound.play cs)]
        simp only [remaining, hp, Task.left]
        exact List.suffix_append ..
      have hafter := suffix_play (hsound.play _) hsuffix hds
      rw [hsplit, play_append] at hle ⊢
      exact (hafter.eq_of_length_le hle).symm

/-! ### The whole call -/

/-- Whatever is told of a change goes back to one call, and each call goes like this: it forgets the registrations with
the source whose listeners are gone, and no others. Then, whatever the host and the listeners do meanwhile, the
listeners that are left have their turns in the order in which they registered, one for each registration; whoever is
there at its turn is told the two values of the call, whoever is not is passed over, and nobody else is told anything by
the call. When it is over, everybody has had his turn; and it comes to an end if the listeners do. -/
theorem notify_fans_out (as : List Act) (a : Act) :
    (∀ x new previous ls, .notify x new previous ls ∈ (initial.play as).started a →
      ∃ t ts, (initial.play as).Notified a t x new previous ts ∧
        (initial.play as).started a = (t.notify x new previous).tasks ++ ts ∧ ∀ t ∈ ts, ¬t.IsNotify) ∧
    ∀ t x new previous ts, (initial.play as).Notified a t x new previous ts →
      let s := (initial.play as).act a
      let below := ts ++ t.pending
      (∀ z, (s.store.listeners z).entries = if x = z then t.registered x else (t.store.listeners z).entries) ∧
      (∀ bs, AtEach (Busy below.length) s bs →
        FansOut x new previous below ((t.registered x).map (·.2)) s bs) ∧
      (ListenersReturn x new previous below s →
        ∃ bs, AtEach (Busy below.length) s bs ∧ (s.play bs).pending = below) := by
  have hsound := sound_initial.play as
  refine ⟨fun x new previous ls h => exists_notified hsound h, fun t x new previous ts h => ?_⟩
  intro s below
  have hs : Sound (· ∈ s.held) s := hsound.act a
  have hstart : s.pending = .notify x new previous ((t.registered x).map (·.2)) :: below := by
    show ((initial.play as).act a).pending = _
    rw [h, tasks_notify]
    rfl
  refine ⟨fun z => ?_, fun bs hbs => ?_, fun hreturn => ?_⟩
  · have hstore : s.store = t.store.sweep t.isPresent x := by
      show ((initial.play as).act a).store = _
      rw [h]
      rfl
    rw [hstore, (Store.relists_sweep t.store t.isPresent x).entries]
    by_cases hxz : x = z
    · subst hxz
      rfl
    · rw [if_neg hxz, if_neg hxz]
  · exact fansOut_play hs (hstart ▸ List.suffix_rfl) hbs
  · have hnow : AtEach (Busy below.length) s [] := trivial
    exact exists_over hs hreturn hnow hstart

/-- A collection with the listeners `a`, `b` and `d`, and one that has gone. In its turn `a` drops `b`, has `late` join
and notifies the collection again. -/
private def meeting : List Act :=
  [.command (.makeCollection "c"), .command (.makeRecorder "gone" [] 1), .command (.makeRecorder "b" [] 1),
    .command (.makeRecorder "late" [] 1),
    .command (.makeRecorder "a"
      [.drop .recorder "b", .listen (.collection "c") "late" "l", .notify "c" (.int 3) (.int 2)] 1),
    .command (.makeRecorder "d" [] 1), .command (.listen (.collection "c") "gone" "g"),
    .command (.listen (.collection "c") "a" "t"), .command (.listen (.collection "c") "b" "u"),
    .command (.listen (.collection "c") "d" "v"), .command (.drop .recorder "gone")]

/-- The first call tells `a` and `d` of its own values, and `late` is left to the second. -/
theorem notify_fans_out_meeting :
    let s := (initial.play meeting).act (.command (.notify "c" (.int 2) (.int 1)))
    let bs := List.replicate 16 Act.step
    (s.play bs).pending = [] ∧
      (s.store.listeners (.collection ⟨1⟩)).audience = [.recorder ⟨5⟩, .recorder ⟨3⟩, .recorder ⟨6⟩] ∧
      ((s.play bs).store.listeners (.collection ⟨1⟩)).audience = [.recorder ⟨5⟩, .recorder ⟨6⟩, .recorder ⟨4⟩] ∧
      along (turnAt 0) s bs = [(.recorder ⟨5⟩, true), (.recorder ⟨3⟩, false), (.recorder ⟨6⟩, true)] ∧
      along (toldAt 0) s bs = [(.recorder ⟨5⟩, .int 2, .int 1), (.recorder ⟨6⟩, .int 2, .int 1)] := by
  intro s bs
  have hnotified : (initial.play meeting).Notified (.command (.notify "c" (.int 2) (.int 1))) (initial.play meeting)
      (.collection ⟨1⟩) (.int 2) (.int 1) [] := rfl
  obtain ⟨-, hfans, -⟩ := (notify_fans_out meeting _).2 _ _ _ _ _ hnotified
  have hone := hfans bs (by decide +kernel)
  have hturns : along (turnAt 0) s bs = [(.recorder ⟨5⟩, true), (.recorder ⟨3⟩, false), (.recorder ⟨6⟩, true)] := by
    decide +kernel
  have hover := (hone.complete (by decide +kernel)).2
  have htold : along (toldAt 0) s bs = [(.recorder ⟨5⟩, .int 2, .int 1), (.recorder ⟨6⟩, .int 2, .int 1)] := by
    refine hone.told.trans ?_
    show ((along (turnAt 0) s bs).filter (·.2)).map _ = _
    rw [hturns]
    rfl
  exact ⟨hover, by decide +kernel, by decide +kernel, hturns, htold⟩

end Session

end DataBinding
