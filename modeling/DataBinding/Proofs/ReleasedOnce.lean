import DataBinding.Proofs.Upholding

/-!
# Every subscription is released once

An observer has its subscription until it is destroyed or nothing holds it any more, and then it has none and is on the
roll of no subject. What the record of a run says of releases can be told from that: the cold streams on it are those of
the observers that are gone, each of them once, and of the sinks that the host gave up (`exists_releasedOnce`). The
account is kept from one act to the next (`Ledger.act`).
-/

namespace DataBinding

namespace Session

variable {E : Effect → Prop} {f : Effect} {p q : Ghost × Session} {as : List Act} {ds : List (Sink × String)}
  {s : Session} {k : Sink} {label : String} {i : StreamId} {o : ObserverId}

/-! ### What observers are subscribed to -/

/-- A stream stays a subject, or the cold stream that it is. -/
theorem Move.labelOf (hm : Move f p q) (hi : i.number < p.2.store.fresh) :
    q.2.store.labelOf i = p.2.store.labelOf i := by
  cases hm with
  | opening =>
    rw [Store.openObserver_eq]
    exact Eval.label?_subscribed ..
  | destroying | erasing | releasing => exact labelOf_close ..
  | subscribing =>
    rw [Store.subscribe_eq]
    exact Eval.label?_subscribed ..
  | newStream =>
    simp only [Store.labelOf, Store.newStream, Table.get?_insert]
    rw [if_neg]
    rintro rfl
    exact Nat.lt_irrefl _ hi
  | emitting hx | ending hx =>
    refine labelOf_setStream hx ?_ i
    rfl
  | _ => rfl

/-- An observer keeps its subscription until it has none. -/
theorem Move.subscriptionOf (hm : Move f p q) (hr : Released p.2) (ho : o.number < p.2.store.fresh) :
    q.2.subscriptionOf (.observer o) = p.2.subscriptionOf (.observer o) ∨ q.2.subscriptionOf (.observer o) = none := by
  cases hm.rewires hr with
  | same hs | ended hs | made _ _ hs => exact .inl (congrFun hs _)
  | @left k c d hk hd hs =>
    rw [hs]
    split
    next hko =>
      refine .inr (Option.eq_none_iff_forall_ne_some.2 fun c' hc' => ?_)
      obtain ⟨-, n, hn⟩ := hd c' hc'
      rw [hn] at hko
      cases hko
    · exact .inl rfl
  | @joined k i hk hf hs =>
    rw [hs, if_neg]
    · exact .inl rfl
    · rintro rfl
      exact absurd ho (Nat.not_lt.2 (Nat.le_of_eq hk.symm))

theorem Moves.subscriptionOf (hm : Moves E p q) (hsound : Sound p.1.hand p.2) (hw : Wired p.2)
    (ho : o.number < p.2.store.fresh) :
    q.2.subscriptionOf (.observer o) = p.2.subscriptionOf (.observer o) ∨ q.2.subscriptionOf (.observer o) = none := by
  induction hm with
  | refl => exact .inl rfl
  | tail hm hlast ih =>
    obtain ⟨f, -, hlast⟩ := hlast
    have hold := Nat.lt_of_lt_of_le ho (Moves.fresh_le hm)
    rcases hlast.subscriptionOf (hw.moves hm hsound).released hold with hsame | hnone
    · rw [hsame]
      exact ih
    · exact .inr hnone

theorem Moves.labelOf (hm : Moves E p q) (hi : i.number < p.2.store.fresh) :
    q.2.store.labelOf i = p.2.store.labelOf i := by
  induction hm with
  | refl => rfl
  | tail hm hlast ih =>
    obtain ⟨f, -, hlast⟩ := hlast
    exact (hlast.labelOf (Nat.lt_of_lt_of_le hi (Moves.fresh_le hm))).trans ih

/-- A live observer of a cold stream is subscribed to it. -/
def Cold (g : Ghost) (s : Session) : Prop :=
  ∀ y i o, g.opened y i o → s.store.isLive o = true → s.coldOf (.observer o) = s.store.labelOf i

theorem Cold.move (hm : Move f p q) (hk : Kept p.1 p.2) (h : Cold p.1 p.2) : Cold q.1 q.2 := by
  -- an observer that there was before keeps its subscription as long as it lives
  have hbefore : ∀ {y i o}, p.1.opened y i o → q.2.store.isLive o = true →
      q.2.coldOf (.observer o) = q.2.store.labelOf i := by
    intro y i o ho hlive
    obtain ⟨hi, hold⟩ := hk.old ho
    rw [hm.labelOf hi]
    rcases hm.subscriptionOf hk.wired.released hold with hsame | hnone
    · rw [coldOf, hsame]
      exact h y i o ho (isLive_congr hsame ▸ hlive)
    · rw [← isSome_subscriptionOf, hnone] at hlive
      cases hlive
  have hopened : q.1.opened = p.1.opened → Cold q.1 q.2 := fun he y i o ho => hbefore (he ▸ ho)
  cases hm with
  | @opening g s y i t =>
    rintro z j o (ho | ⟨rfl, rfl, rfl⟩) hlive
    · exact hbefore ho hlive
    · rw [coldOf, subscriptionOf_openObserver, if_pos rfl, Option.bind_some, Eval.label?_subscription,
        Store.openObserver_eq]
      exact (Eval.label?_subscribed ..).symm
  | _ => exact hopened rfl

/-! ### The account of a run -/

/-- Whether, at some point of the run, the sink was subscribed to the cold stream. -/
def Took (as : List Act) (k : Sink) (label : String) : Prop := ∃ bs, bs <+: as ∧ (initial.play bs).Takes k label

theorem took_nil : ¬Took [] k label := by
  rintro ⟨bs, hbs, htakes⟩
  obtain rfl := List.prefix_nil.1 hbs
  cases k with
  | observer o =>
    obtain ⟨y, i, he, -⟩ := htakes
    exact kept_initial.entered he
  | handler k => cases htakes

theorem took_append {a : Act} :
    Took (as ++ [a]) k label ↔ Took as k label ∨ (initial.play (as ++ [a])).Takes k label := by
  constructor
  · rintro ⟨bs, hbs, htakes⟩
    rcases List.prefix_concat_iff.1 hbs with rfl | hbs
    · exact .inr htakes
    · exact .inl ⟨bs, hbs, htakes⟩
  · rintro (⟨bs, hbs, htakes⟩ | htakes)
    · exact ⟨bs, hbs.trans (List.prefix_append ..), htakes⟩
    · exact ⟨_, List.prefix_refl _, htakes⟩

/-- The sinks in `ds` have released their subscriptions to cold streams, in this order; all others that were subscribed
still are. -/
structure Ledger (as : List Act) (ds : List (Sink × String)) : Prop where
  attended : Attended [] (initial.play as)
  noted : (initial.play as).released = ds.map (·.2)
  once : (ds.map (·.1)).Nodup
  old {k : Sink} {label : String} : (k, label) ∈ ds → k.number < (initial.play as).store.fresh
  left {k : Sink} {label : String} : (k, label) ∈ ds → (initial.play as).coldOf k = none
  took {k : Sink} {label : String} : Took as k label ↔ (initial.play as).coldOf k = some label ∨ (k, label) ∈ ds

theorem attended_initial : Attended [] initial := by
  have hempty : Attended [] {} :=
    { present := by rintro o (hn | ht | ⟨b, x, hb, -⟩ | ⟨i, r, hi, -⟩) <;> contradiction
      held := nofun
      released := nofun
      observers := nofun
      sinks := fun {k label} hk => by cases k <;> cases hk
      entered := nofun
      bindings := nofun
      records := nofun }
  have hstart : Tends [] [] [] {} initial :=
    (undisturbed_newSystem {} {}).tends.before (tends_setNameOf "main" (by decide))
  exact (hstart hempty).2

theorem ledger_nil : Ledger [] [] where
  attended := attended_initial
  noted := rfl
  once := .nil
  old := nofun
  left := nofun
  took {k label} := by
    refine iff_of_false took_nil ?_
    rintro (hk | hk)
    · cases k <;> cases hk
    · cases hk

/-- An act adds to the account those that it releases. -/
theorem Ledger.act (h : Ledger as ds) (a : Act) : ∃ gone, Ledger (as ++ [a]) (ds ++ gone) := by
  obtain ⟨new, gone, hturn, hnew, hattended⟩ := upholds_act (sound_initial.play as) a h.attended
  have hplay : initial.play (as ++ [a]) = (initial.play as).act a := play_append ..
  have hsinks : ∀ {k label}, (k, label) ∈ ds ∨ (initial.play as).coldOf k = some label →
      k.number < (initial.play as).store.fresh := fun hk => hk.elim h.old h.attended.sinks
  refine ⟨gone, hplay ▸ hattended, ?_, ?_, fun {k label} hk => ?_, fun {k label} hk => ?_, fun {k label} => ?_⟩
  · rw [hplay, hturn.noted, h.noted, List.map_append]
  · rw [List.map_append]
    refine List.nodup_append.2 ⟨h.once, hturn.once, ?_⟩
    rintro k hk _ hk' rfl
    obtain ⟨⟨_, label⟩, hmem, rfl⟩ := List.mem_map.1 hk
    obtain ⟨⟨k', label'⟩, hmem', heq⟩ := List.mem_map.1 hk'
    obtain rfl : k' = _ := heq
    rcases (hturn.gone_iff.1 hmem').1 with hs | hs
    · exact absurd ((h.left hmem).symm.trans hs) nofun
    · exact absurd (h.old hmem) (Nat.not_lt.2 (hturn.made hs).1)
  · rw [hplay]
    rcases List.mem_append.1 hk with hk | hk
    · exact Nat.lt_of_lt_of_le (h.old hk) hturn.fresh
    · rcases (hturn.gone_iff.1 hk).1 with hs | hs
      · exact Nat.lt_of_lt_of_le (h.attended.sinks hs) hturn.fresh
      · exact (hturn.made hs).2
  · rw [hplay]
    rcases List.mem_append.1 hk with hk | hk
    · refine Option.eq_none_iff_forall_ne_some.2 fun l hl => ?_
      rcases hturn.kept hl with hs | hs
      · exact absurd ((h.left hk).symm.trans hs) nofun
      · exact absurd (h.old hk) (Nat.not_lt.2 (hturn.made hs).1)
    · exact (hturn.gone_iff.1 hk).2
  · rw [took_append, h.took, hplay, List.mem_append]
    -- who is subscribed before or during the act is so afterwards, or is released in it
    have hafter : (initial.play as).coldOf k = some label ∨ (k, label) ∈ new →
        ((initial.play as).act a).coldOf k = some label ∨ (k, label) ∈ ds ∨ (k, label) ∈ gone := by
      intro hk
      cases ht : ((initial.play as).act a).coldOf k with
      | none => exact .inr (.inr (hturn.gone_iff.2 ⟨hk, ht⟩))
      | some l =>
        refine .inl (congrArg some ?_)
        rcases hk with hk | hk <;> rcases hturn.kept ht with hk' | hk'
        · exact Option.some.inj (hk'.symm.trans hk)
        · exact absurd (h.attended.sinks hk) (Nat.not_lt.2 (hturn.made hk').1)
        · exact absurd (h.attended.sinks hk') (Nat.not_lt.2 (hturn.made hk).1)
        · exact hturn.alone hk' hk
    constructor
    · rintro ((hk | hk) | htakes)
      · exact hafter (.inl hk)
      · exact .inr (.inl hk)
      · cases k with
        | handler k => exact .inl htakes
        | observer o =>
          obtain ⟨y, i, he, hl⟩ := htakes
          rcases hturn.entries he with he | ⟨-, hmade⟩
          · have htook : Took as (.observer o) label :=
              ⟨as, List.prefix_refl as, y, i, he, hturn.labels (h.attended.entered he).1 ▸ hl⟩
            rcases h.took.1 htook with hk | hk
            · exact hafter (.inl hk)
            · exact .inr (.inl hk)
          · exact hafter (.inr (hmade label hl))
    · have hbefore : (initial.play as).coldOf k = some label ∨ (k, label) ∈ new →
          ((initial.play as).coldOf k = some label ∨ (k, label) ∈ ds) ∨ ((initial.play as).act a).Takes k label :=
        fun hk => hk.imp .inl (hnew k label)
      rintro (ht | hk | hk)
      · exact hbefore (hturn.kept ht)
      · exact .inl (.inr hk)
      · exact hbefore (hturn.gone_iff.1 hk).1

theorem exists_ledger (as : List Act) : ∃ ds, Ledger as ds := by
  induction as using List.reverseRecOn with
  | nil => exact ⟨_, ledger_nil⟩
  | append_singleton as a ih =>
    obtain ⟨ds, h⟩ := ih
    obtain ⟨gone, hgone⟩ := h.act a
    exact ⟨_, hgone⟩

/-- An observer took a subscription iff it was opened for a cold stream. -/
theorem took_observer_iff :
    Took as (.observer o) label ↔ ∃ y i, Opened as y i o ∧ (initial.play as).store.labelOf i = some label := by
  have hlabel : ∀ {bs y i}, bs <+: as → (initial.play bs).systems.entryIn y i = some o →
      (initial.play as).store.labelOf i = (initial.play bs).store.labelOf i := by
    rintro bs y i ⟨cs, rfl⟩ he
    obtain ⟨ds, hbs⟩ := exists_ledger bs
    obtain ⟨g, hm⟩ := moves_play (sound_initial.play bs) (fun _ _ _ => False) cs
    rw [play_append]
    exact Moves.labelOf hm (hbs.attended.entered he).1
  constructor
  · rintro ⟨bs, hbs, y, i, he, hl⟩
    exact ⟨y, i, ⟨bs, hbs, he⟩, (hlabel hbs he).trans hl⟩
  · rintro ⟨y, i, ⟨bs, hbs, he⟩, hl⟩
    exact ⟨bs, hbs, y, i, he, (hlabel hbs he).symm.trans hl⟩

/-! ### Who is gone -/

/-- The observer is destroyed, or nothing holds it any more. -/
def Gone (s : Session) (o : ObserverId) : Prop :=
  (∃ x, s.store.observers.get? o = some x ∧ x.isDestroyed = true) ∨ s.isHeld o.ref = false

/-- An observer is live as long as it is not gone. -/
theorem Attended.gone_iff (h : Attended [] s) : s.Gone o ↔ s.store.isLive o = false := by
  cases ho : s.store.observers.get? o with
  | none =>
    have hnot : s.isHeld o.ref = false := by
      by_contra hheld
      have := h.present (isHeld_iff.1 (by simpa using hheld))
      simp [ho] at this
    exact iff_of_true (.inr hnot) (by simp [Store.isLive, ho])
  | some x =>
    have hheld : s.isHeld o.ref = true := isHeld_iff.2 ((h.held (by simp [ho])).resolve_right List.not_mem_nil)
    simp [Gone, Store.isLive, ho, hheld]

/-- The account of a run, with what has become of the observers that registries opened in it. -/
structure ReleasedOnce (as : List Act) (ds : List (Sink × String)) : Prop where
  /-- The releases on record are these, in this order. -/
  noted : (initial.play as).released = ds.map (·.2)
  /-- No sink has released its subscription twice. -/
  once : (ds.map (·.1)).Nodup
  /-- An observer has released its subscription to a cold stream iff it was opened for that stream and is gone. -/
  released {o : ObserverId} {label : String} : (.observer o, label) ∈ ds ↔
    (∃ y i, Opened as y i o ∧ (initial.play as).store.labelOf i = some label) ∧ (initial.play as).Gone o
  /-- It has the subscription still iff it was opened for that stream and is not gone. -/
  pending {o : ObserverId} {label : String} : (initial.play as).coldOf (.observer o) = some label ↔
    (∃ y i, Opened as y i o ∧ (initial.play as).store.labelOf i = some label) ∧ ¬(initial.play as).Gone o
  /-- The rest of the releases are those of the host's sinks that were subscribed and are no longer. -/
  handlers {k : SinkId} {label : String} : (.handler k, label) ∈ ds ↔
    (∃ bs, bs <+: as ∧ (initial.play bs).coldOf (.handler k) = some label) ∧
      (initial.play as).coldOf (.handler k) = none
  /-- A subject that has not ended tells an observer that was opened for it iff the observer is not gone. -/
  told {y : SystemId} {i : StreamId} {o : ObserverId} {x : Subject} : Opened as y i o →
    (initial.play as).store.streams.get? i = some (.subject x) → x.isClosed = false →
      ((∃ t, (t, .observer o) ∈ x.sinks) ↔ ¬(initial.play as).Gone o)
  /-- An observer is on no roll but that of its stream, and there only once. -/
  alone {y : SystemId} {i j : StreamId} {o : ObserverId} {x : Subject} {t : Nat} : Opened as y i o →
    (initial.play as).store.streams.get? j = some (.subject x) → (t, .observer o) ∈ x.sinks →
      j = i ∧ ∀ t', (t', .observer o) ∈ x.sinks → t' = t
  /-- Whatever the stream, an observer has nothing left to release iff it is gone. -/
  rest {o : ObserverId} : (initial.play as).subscriptionOf (.observer o) = none ↔ (initial.play as).Gone o
  /-- Whatever happens next, an observer has the same to release or nothing, so what is released is never held again. -/
  same {y : SystemId} {i : StreamId} {o : ObserverId} (bs : List Act) : Opened as y i o →
    (initial.play (as ++ bs)).subscriptionOf (.observer o) = (initial.play as).subscriptionOf (.observer o) ∨
      (initial.play (as ++ bs)).subscriptionOf (.observer o) = none

/-- In every run, whatever an observer has subscribed to is released exactly once: when it is destroyed or nothing holds
it any more. -/
theorem exists_releasedOnce (as : List Act) : ∃ ds, ReleasedOnce as ds := by
  obtain ⟨ds, h⟩ := exists_ledger as
  obtain ⟨opened, hkept, hcold, hopened⟩ :=
    exists_kept_and (I := Cold) (fun hm hk h => h.move hm hk) (fun y i o ho => by cases ho) as
  have hgone : ∀ {o}, (initial.play as).Gone o ↔ (initial.play as).store.isLive o = false := h.attended.gone_iff
  -- an observer of a cold stream has its subscription as long as it is live
  have hlive : ∀ {o label}, Took as (.observer o) label →
      ((initial.play as).coldOf (.observer o) = some label ↔ ¬(initial.play as).Gone o) := by
    intro o label hk
    obtain ⟨y, i, ho, hl⟩ := took_observer_iff.1 hk
    rw [hgone, Bool.not_eq_false]
    constructor
    · intro hs
      rw [← isSome_subscriptionOf]
      obtain ⟨c, hc, -⟩ := Option.bind_eq_some_iff.1 hs
      exact Option.isSome_of_eq_some hc
    · exact fun hlive => (hcold y i o (hopened y i o ho) hlive).trans hl
  refine ⟨ds, ?_⟩
  constructor
  case noted => exact h.noted
  case once => exact h.once
  case released =>
    intro o label
    rw [← took_observer_iff]
    constructor
    · intro hk
      have hk' := h.took.2 (.inr hk)
      refine ⟨hk', ?_⟩
      by_contra hnot
      cases (h.left hk).symm.trans ((hlive hk').2 hnot)
    · rintro ⟨hk, hg⟩
      exact (h.took.1 hk).resolve_left fun hs => (hlive hk).1 hs hg
  case pending =>
    intro o label
    rw [← took_observer_iff]
    constructor
    · intro hs
      have hk := h.took.2 (.inl hs)
      exact ⟨hk, (hlive hk).1 hs⟩
    · rintro ⟨hk, hg⟩
      exact (hlive hk).2 hg
  case handlers =>
    intro k label
    constructor
    · exact fun hk => ⟨h.took.2 (.inr hk), h.left hk⟩
    · rintro ⟨hk, hnone⟩
      have hk' : Took as (.handler k) label := hk
      refine (h.took.1 hk').resolve_left fun hs => ?_
      cases hnone.symm.trans hs
  case told =>
    intro y i o x ho hx hc
    rw [hgone, Bool.not_eq_false]
    constructor
    · rintro ⟨t, ht⟩
      rw [← isSome_subscriptionOf, hkept.wired.owned (rollOf_of_get? hx) ht]
      rfl
    · exact fun hlive => (hkept.placed (hopened y i o ho)).told hlive (rollOf_of_get? hx) hc
  case alone =>
    intro y i j o x t ho hx ht
    have howned := hkept.wired.owned (rollOf_of_get? hx) ht
    refine ⟨(hkept.placed (hopened y i o ho)).only howned, fun t' ht' => ?_⟩
    have howned' := hkept.wired.owned (rollOf_of_get? hx) ht'
    exact (Subscription.subject.inj (Option.some.inj (howned'.symm.trans howned))).2
  case rest =>
    intro o
    rw [hgone, ← isSome_subscriptionOf, Option.isSome_eq_false_iff, Option.isNone_iff_eq_none]
  case same =>
    intro y i o bs ho
    obtain ⟨g, hm⟩ := moves_play (sound_initial.play as) opened bs
    rw [play_append]
    exact Moves.subscriptionOf hm (sound_initial.play as) hkept.wired (hkept.old (hopened y i o ho)).2

/-- A stream that ends while it is subscribed to is released as well once nothing holds its observer. -/
example : (initial.play [.command (.makeCold "c" [.next (.int 1), .complete]),
    .command (.observe "main" "c" none)]).released = ["c"] := by decide +kernel

end Session

end DataBinding
