import DataBinding.Proofs.LatestValue

/-!
# Observers that are told are active

An observer that a subject tells is active: it ends when the subject does, which then tells nobody, and nothing else
ends it. `Attentive` says so of a session and of the work under way; every act preserves it (`Attentive.act`).
-/

namespace DataBinding

/-- The task tells the observer that a stream has ended. -/
def Task.Ends (o : ObserverId) : Task → Prop
  | .deliver _ e rest => (∀ v, e ≠ .next v) ∧ .observer o ∈ rest
  | _ => False

theorem Task.IsQuiet.not_ends {t : Task} {n : Nat} (h : t.IsQuiet n) (o : ObserverId) : ¬t.Ends o := by
  cases t with
  | deliver i e rest =>
    obtain rfl : rest = [.handler ⟨n⟩] := h
    simp [Task.Ends]
  | _ => exact id

namespace Session

variable {s s' : Session} {i : StreamId} {o : ObserverId} {e : Effect} {a b : Ghost × Session} {E : Effect → Prop}

/-- Some subject tells the observer. -/
def IsTold (s : Session) (o : ObserverId) : Prop := ∃ i x t, s.rollOf i = some x ∧ (t, .observer o) ∈ x.sinks

/-! ### Whom subjects tell -/

theorem IsTold.of_rolls (h : s'.IsTold o) (hr : ∀ i x', s'.rollOf i = some x' → ∀ t, (t, .observer o) ∈ x'.sinks →
    ∃ x, s.rollOf i = some x ∧ (t, .observer o) ∈ x.sinks) : s.IsTold o := by
  obtain ⟨i, x', t, hx', ht⟩ := h
  obtain ⟨x, hx, ht⟩ := hr i x' hx' t ht
  exact ⟨i, x, t, hx, ht⟩

theorem IsTold.close {c : Subscription} (h : (s.close c).IsTold o) : s.IsTold o := by
  refine h.of_rolls fun i x' hx' t ht => ?_
  rw [rollOf_close] at hx'
  obtain ⟨x, hx, rfl⟩ := Option.map_eq_some_iff.1 hx'
  refine ⟨x, hx, ?_⟩
  unfold Roll.without at ht
  split at ht
  · split at ht
    · exact (List.mem_filter.1 ht).1
    · exact ht
  · exact ht

theorem IsTold.setStream {j : StreamId} {x : Stream}
    (hx : ∀ z, Roll.ofStream x = some z → z.sinks = [] ∨ s.rollOf j = some z)
    (h : ({ s with store := s.store.setStream j x } : Session).IsTold o) : s.IsTold o := by
  refine h.of_rolls fun i x' hx' t ht => ?_
  rw [rollOf_setStream] at hx'
  split at hx'
  next hij =>
    subst hij
    rcases hx x' hx' with hnil | hsame
    · rw [hnil] at ht
      cases ht
    · exact ⟨x', hsame, ht⟩
  · exact ⟨x', hx', ht⟩

/-- A sink that joins is on the roll of the stream. -/
theorem IsTold.joined {k : Sink} {j : StreamId} (h : s'.IsTold o)
    (hr : ∀ i, s'.rollOf i = (s.rollOf i).map fun x => if j = i then x.add k else x) :
    s.IsTold o ∨ k = .observer o ∧ ∃ x, s.rollOf j = some x ∧ x.isClosed = false := by
  obtain ⟨i, x', t, hx', ht⟩ := h
  rw [hr] at hx'
  obtain ⟨x, hx, rfl⟩ := Option.map_eq_some_iff.1 hx'
  split at ht
  next hji =>
    subst hji
    unfold Roll.add at ht
    split at ht
    · exact .inl ⟨j, x, t, hx, ht⟩
    next hopen =>
      rcases List.mem_append.1 ht with ht | ht
      · exact .inl ⟨j, x, t, hx, ht⟩
      · exact .inr ⟨(congrArg Prod.snd (List.mem_singleton.1 ht)).symm, x, hx, by simpa using hopen⟩
  · exact .inl ⟨i, x, t, hx, ht⟩

theorem Observer.isActive_receiveAll {x : Observer} (hx : x.isActive = true) {es : List StreamEvent}
    (hes : ∀ e ∈ es, ∃ v, e = .next v) : (x.receiveAll es).isActive = true := by
  unfold Observer.receiveAll
  induction es generalizing x with
  | nil => exact hx
  | cons e es ih =>
    obtain ⟨v, rfl⟩ := hes e (by simp)
    refine ih ?_ fun d hd => hes d (List.mem_cons_of_mem _ hd)
    have htaken : (x.receive (.next v)).1 = { x with value := v } := by simp [Observer.receive, hx]
    change (x.receive (.next v)).1.isActive = true
    rw [htaken]
    exact hx

/-- A subject that has not ended does not greet a new sink with its end. -/
theorem isActive_opened {x : Roll} (hx : s.rollOf i = some x) (hopen : x.isClosed = false) :
    (s.store.opened i).isActive = true := by
  obtain ⟨st, hst, hroll⟩ := Option.bind_eq_some_iff.1 hx
  cases st with
  | cold => cases hroll
  | subject z =>
    obtain rfl := Option.some.inj hroll
    have hterminal : z.terminal = none := by simpa [Roll.of, Subject.isClosed] using hopen
    have hgreeting : ∀ e ∈ s.store.greeting i, ∃ v, e = .next v := by
      intro e he
      simp only [Store.greeting, hst, Stream.greeting, Subject.greeting, hterminal, Option.toList_none,
        List.append_nil] at he
      split at he
      · obtain ⟨v, -, rfl⟩ := List.mem_map.1 he
        exact ⟨v, rfl⟩
      · cases he
    exact Observer.isActive_receiveAll (x := {}) rfl hgreeting

theorem Roll.eq_of_ofStream {x : Stream} {z : Roll} (h : Roll.ofStream x = some z) :
    ∃ y, x = .subject y ∧ z.sinks = y.sinks := by
  cases x with
  | cold => cases h
  | subject y =>
    obtain rfl := Option.some.inj h
    exact ⟨y, rfl, rfl⟩

/-- Whom subjects tell after a move they told before, or it is a new observer, which is active. -/
theorem Move.isTold (hm : Move e a b) (h : b.2.IsTold o) :
    a.2.IsTold o ∨ o = ⟨a.2.store.fresh⟩ ∧ (b.2.activeValue? o).isSome := by
  cases hm with
  | @opening g s y i t hi hy hfree hs hc he =>
    -- an open subject greets with values alone, so the observer that joins its roll is active
    refine (h.joined (rollOf_openObserver s i t)).imp_right ?_
    rintro ⟨hk, x, hx, hopen⟩
    obtain rfl := Sink.observer.inj hk
    have hactive := isActive_opened hx hopen
    refine ⟨rfl, ?_⟩
    rw [Session.activeValue?, Store.openObserver_eq]
    simp [Table.get?_insert, Observer.activeValue?, hactive]
  | @subscribing g s i x hx =>
    have hr := rollOf_modify { s with store := { s.store with fresh := s.store.fresh + 1 } } i (.handler ⟨s.store.fresh⟩)
    refine (h.joined hr).imp_right ?_
    rintro ⟨hk, -⟩
    cases hk
  | destroying | erasing | releasing =>
    have hbefore := h.close
    exact .inl hbefore
  | newStream hx hsinks =>
    refine .inl (h.setStream fun z hz => .inl ?_)
    obtain ⟨y, rfl, hy⟩ := Roll.eq_of_ofStream hz
    rw [hy]
    exact hsinks y rfl
  | @emitting g s j x v hs hi hv =>
    refine .inl (h.setStream fun z hz => .inr ?_)
    obtain rfl := Option.some.inj hz
    rw [rollOf_of_get? hs, ofStream_emit]
  | @ending g s j x e hs he =>
    refine .inl (h.setStream fun z hz => .inl ?_)
    obtain rfl := Option.some.inj hz
    rw [ofStream_terminate]
    rfl
  | _ => exact .inl h

theorem Moves.isTold (hm : Moves E a b) (ho : o.number < a.2.store.fresh) (h : b.2.IsTold o) : a.2.IsTold o := by
  induction hm with
  | refl => exact h
  | tail hm hlast ih =>
    obtain ⟨e, -, hlast⟩ := hlast
    refine ih ((hlast.isTold h).resolve_right ?_)
    rintro ⟨rfl, -⟩
    exact Nat.lt_irrefl _ (Nat.lt_of_lt_of_le ho (Moves.fresh_le hm))

/-! ### Who is active -/

/-- An active observer stays active as long as it is live and is not told of an end. -/
theorem Move.active (hm : Move e a b) (ho : o.number < a.2.store.fresh)
    (he : ∀ d, e = .receives o d → ∃ v, d = .next v) (hlive : b.2.store.isLive o = true)
    (h : (a.2.activeValue? o).isSome) : (b.2.activeValue? o).isSome := by
  cases hm with
  | opening =>
    rw [Session.activeValue?, Store.openObserver_eq]
    simp only [Table.get?_insert]
    split
    next hne =>
      subst hne
      exact absurd ho (Nat.lt_irrefl _)
    · exact h
  | destroying =>
    rw [observers_close, isLive_setObserver] at hlive
    rw [activeValue?_close, activeValue?_setObserver]
    split at hlive
    · cases hlive
    next hne => rwa [if_neg hne]
  | erasing =>
    rw [observers_close] at hlive
    obtain ⟨x, hx, -⟩ := Store.isLive_iff.1 hlive
    rw [Table.get?_erase] at hx
    rw [activeValue?_close]
    simp only [Session.activeValue?, Table.get?_erase]
    split at hx
    · cases hx
    next hne => rwa [if_neg hne]
  | listening hx | hearing hx =>
    rw [activeValue?_setObserver]
    split
    next hp =>
      subst hp
      rw [Session.activeValue?, hx] at h
      exact h
    · exact h
  | receiving hx =>
    -- only an end would make the observer inactive, and what it receives is a value
    rw [activeValue?_setObserver]
    split
    next hp =>
      subst hp
      obtain ⟨v, rfl⟩ := he _ rfl
      rw [Session.activeValue?, hx, Option.bind_some] at h
      rw [Observer.activeValue?_receive, Option.isSome_bind]
      exact h
    · exact h
  | releasing => rwa [activeValue?_close]
  | subscribing =>
    rw [Session.activeValue?, Store.subscribe_eq]
    exact h
  | _ => exact h

theorem Moves.attentive (hm : Moves E a b) (hsound : Sound a.1.hand a.2) (hw : Wired a.2)
    (hE : ∀ o d, E (.receives o d) → (∃ v, d = .next v) ∨ o.number < a.2.store.fresh ∧ ¬a.2.IsTold o)
    (h : ∀ o, a.2.IsTold o → (a.2.activeValue? o).isSome) {o : ObserverId} (ho : b.2.IsTold o) :
    (b.2.activeValue? o).isSome := by
  induction hm with
  | refl => exact h o ho
  | @tail c b hm hlast ih =>
    obtain ⟨e, he, hlast⟩ := hlast
    rcases hlast.isTold ho with hc | ⟨-, hactive⟩
    · have hwired := hw.moves hm hsound
      obtain ⟨i, x, t, hx, ht⟩ := hc
      obtain ⟨j, x', u, hx', hu⟩ := ho
      have hold : o.number < c.2.store.fresh := hwired.old (k := .observer o) (by simp [hwired.owned hx ht])
      have hlive : b.2.store.isLive o = true := by
        rw [← isSome_subscriptionOf, (hwired.move hlast (hsound.moves hm)).owned hx' hu]
        rfl
      refine hlast.active hold (fun d hd => ?_) hlive (ih ⟨i, x, t, hx, ht⟩)
      subst hd
      refine (hE o d he).resolve_right ?_
      rintro ⟨ha, hnot⟩
      exact hnot (Moves.isTold hm ha ⟨i, x, t, hx, ht⟩)
    · exact hactive

/-! ### The work under way -/

/-- Whom subjects tell is active, and the work under way ends nobody whom they tell. -/
structure Attentive (s : Session) : Prop where
  active {o : ObserverId} : s.IsTold o → (s.activeValue? o).isSome
  spared {o : ObserverId} {t : Task} : t ∈ s.pending → t.Ends o → o.number < s.store.fresh ∧ ¬s.IsTold o

/-- A subject that ends tells nobody any more. -/
theorem ends_terminate (hw : Wired s) {d : StreamEvent} {t : Task} (ht : t ∈ (s.terminate i d).tasks) (ho : t.Ends o) :
    o.number < s.store.fresh ∧ ¬(s.terminate i d).session.IsTold o := by
  unfold terminate at ht ⊢
  split at ht
  next x hx =>
    obtain rfl := List.mem_singleton.1 ht
    obtain ⟨-, ho⟩ := ho
    unfold Subject.terminate at ho
    split at ho
    · cases ho
    · obtain ⟨⟨n, k⟩, hn, rfl⟩ := List.mem_map.1 ho
      have hown := hw.owned (rollOf_of_get? hx) hn
      refine ⟨hw.old (k := .observer o) (by simp [hown]), ?_⟩
      rintro ⟨j, x', m, hx', hm⟩
      rw [rollOf_setStream] at hx'
      split at hx'
      next hij =>
        obtain rfl := Option.some.inj hx'
        rw [ofStream_terminate] at hm
        cases hm
      next hij =>
        -- the observer has one subscription
        have hsame := (hw.owned hx' hm).symm.trans hown
        obtain ⟨rfl, -⟩ := Subscription.subject.inj (Option.some.inj hsame)
        exact hij rfl
  · cases ht

theorem ends_execute (hw : Wired s) {c : Command} {t : Task} (ht : t ∈ (s.execute c).tasks) (ho : t.Ends o) :
    o.number < s.store.fresh ∧ ¬(s.execute c).session.IsTold o := by
  cases c with
  | next stream value =>
    unfold execute at ht
    cases ha : s.answer? (.next stream value) with
    | none => simp [ha] at ht
    | some a =>
      rw [ha] at ht
      obtain ⟨j, -, ha⟩ := Option.bind_eq_some_iff.1 ha
      obtain ⟨⟨s', v⟩, -, ha⟩ := Option.bind_eq_some_iff.1 ha
      obtain rfl := Option.some.inj ha
      simp only [Option.getD_some, Reaction.answer, emit] at ht
      split at ht
      · obtain rfl := List.mem_singleton.1 ht
        exact absurd rfl (ho.1 v)
      · cases ht
  | fail stream message =>
    simp only [execute, answer?, answerFail] at ht ⊢
    cases hi : s.named? .stream stream with
    | none => simp [hi] at ht
    | some i =>
      rw [hi] at ht
      exact ends_terminate hw ht ho
  | complete stream =>
    simp only [execute, answer?, answerComplete] at ht ⊢
    cases hi : s.named? .stream stream with
    | none => simp [hi] at ht
    | some i =>
      rw [hi] at ht
      exact ends_terminate hw ht ho
  | _ => exact absurd ho ((quiet_execute rfl t ht).not_ends o)

theorem ends_of_left {t t' : Task} (h : t' ∈ t.left) (ho : t'.Ends o) : t.Ends o := by
  cases Task.shortens_of_mem_left h with
  | deliver => exact ⟨ho.1, List.mem_cons_of_mem _ ho.2⟩
  | notify | perform => exact ho.elim

/-- Only a command leads to tasks that end somebody, and it ends those who have just been told the last time. -/
theorem ends_ensuing (hw : Wired s) {t t' : Task} {rest : List Task}
    (ht' : t' ∈ ({ s with pending := t.left ++ rest } : Session).ensuing t) (ho : t'.Ends o) :
    o.number < s.store.fresh ∧ ¬(({ s with pending := rest } : Session).doTask t).IsTold o := by
  have hw' : Wired { s with pending := t.left ++ rest } := { hw with }
  cases t with
  | notify x new previous ls =>
    cases ls with
    | nil => cases ht'
    | cons l ls =>
      simp only [ensuing] at ht'
      split at ht'
      · exact absurd ho ((quiet_tell (n := 0) new previous l t' ht').not_ends o)
      · cases ht'
  | deliver j e ks =>
    cases ks with
    | nil => cases ht'
    | cons k ks => exact absurd ho ((quiet_receive (n := 0) e k t' ht').not_ends o)
  | perform label cs =>
    cases cs with
    | nil => cases ht'
    | cons c cs =>
      rcases List.mem_append.1 ht' with ht' | ht'
      · exact ends_execute hw' ht' ho
      · obtain rfl := List.mem_singleton.1 ht'
        exact ho.elim
  | report | keep | adopt => cases ht'

/-- A task ends nobody but those whom it was to end before, and a command those who have just been told the last
time. -/
theorem ends_doTask (hsound : Sound (· ∈ s.held) s) (hw : Wired s) {t t' : Task} {rest : List Task}
    (hp : s.pending = t :: rest) (ht' : t' ∈ (({ s with pending := rest } : Session).doTask t).pending) (ho : t'.Ends o) :
    (∃ u ∈ s.pending, u.Ends o) ∨
      o.number < s.store.fresh ∧ ¬(({ s with pending := rest } : Session).doTask t).IsTold o := by
  rw [pending_doTask hsound hp] at ht'
  rcases List.mem_append.1 ht' with ht' | ht'
  · exact .inr (ends_ensuing hw ht' ho)
  · rcases List.mem_append.1 ht' with ht' | ht'
    · exact .inl ⟨t, by simp [hp], ends_of_left ht' ho⟩
    · exact .inl ⟨t', by simp [hp, ht'], ho⟩

theorem ends_act (hsound : Sound (· ∈ s.held) s) (hw : Wired s) {a : Act} {t : Task} (ht : t ∈ (s.act a).pending)
    (ho : t.Ends o) : (∃ u ∈ s.pending, u.Ends o) ∨ o.number < s.store.fresh ∧ ¬(s.act a).IsTold o := by
  cases a with
  | command c =>
    rcases List.mem_append.1 ht with ht | ht
    · exact .inr (ends_execute hw ht ho)
    · exact .inl ⟨t, pending_execute hsound c ▸ ht, ho⟩
  | step =>
    simp only [Session.act, step] at ht ⊢
    split at ht
    · exact .inl ⟨t, ht, ho⟩
    next u rest hp => exact ends_doTask hsound hw hp ht ho

theorem Attentive.act (h : Attentive s) (hsound : Sound (· ∈ s.held) s) (hw : Wired s) (a : Act) : Attentive (s.act a) := by
  obtain ⟨g, hm⟩ := moves_act hsound (fun _ _ _ => False) a
  refine ⟨fun ho => ?_, fun ht ho => ?_⟩
  · refine Moves.attentive hm hsound hw (fun o d hd => ?_) (fun o => h.active) ho
    obtain ⟨rfl, j, more, rest, hp⟩ := hd.receives_eq
    by_cases hnext : ∃ v, d = .next v
    · exact .inl hnext
    · refine .inr (h.spared (t := .deliver j d (.observer o :: more)) (by simp [hp]) ⟨fun v hv => hnext ⟨v, hv⟩, by simp⟩)
  · rcases ends_act hsound hw ht ho with ⟨u, hu, hends⟩ | ⟨hold, hnot⟩
    · obtain ⟨hold, hnot⟩ := h.spared hu hends
      exact ⟨Nat.lt_of_lt_of_le hold (Moves.fresh_le hm), fun htold => hnot (Moves.isTold hm hold htold)⟩
    · exact ⟨Nat.lt_of_lt_of_le hold (Moves.fresh_le hm), hnot⟩

end Session

end DataBinding
