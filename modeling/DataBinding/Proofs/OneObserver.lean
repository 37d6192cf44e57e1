import Mathlib.Data.List.Induction
import DataBinding.Proofs.Bystanders
import DataBinding.Proofs.Runs

/-!
# One observer for each stream

Of the observers that a registry opened for a stream, only one is live as long as the stream is held, and the registry
has an entry for it. `Kept` says so of a session and of what was opened in it so far; every move preserves it
(`Kept.move`), whatever becomes of the entries in between. As rolls agree with subscriptions, a subject has that
observer on its roll, once, and nobody else whom the registry put there.
-/

namespace DataBinding

namespace Session

variable {g : Ghost} {s s' : Session} {y z : SystemId} {i j : StreamId} {o p : ObserverId}

/-! ### Observers on the roll -/

/-- The observer is on the roll of the stream `i` if it is live and the stream has not ended, and on no other. -/
structure Placed (s : Session) (i : StreamId) (o : ObserverId) : Prop where
  only {j : StreamId} {t : Nat} : s.subscriptionOf (.observer o) = some (.subject j t) → j = i
  told {x : Roll} : s.store.isLive o = true → s.rollOf i = some x → x.isClosed = false → ∃ t, (t, .observer o) ∈ x.sinks

theorem isLive_congr (h : s'.subscriptionOf (.observer o) = s.subscriptionOf (.observer o)) :
    s'.store.isLive o = s.store.isLive o := by
  rw [← isSome_subscriptionOf, ← isSome_subscriptionOf, h]

/-- An observer stays in its place until it is destroyed. -/
theorem Placed.rewires (hw : Wired s) (hi : i.number < s.store.fresh) (ho : o.number < s.store.fresh)
    (hr : Rewires s s') (h : Placed s i o) : Placed s' i o := by
  cases hr with
  | same hs hr =>
    have hsub := congrFun hs (.observer o)
    constructor
    case only => exact fun ht => h.only (hsub ▸ ht)
    case told =>
      intro x hlive hx hopen
      exact h.told (isLive_congr hsub ▸ hlive) (hr ▸ hx) hopen
  | @left k c c' hk hc hs hr =>
    constructor
    case only =>
      intro j t ht
      rw [hs] at ht
      split at ht
      · cases (hc _ ht).1
      · exact h.only ht
    case told =>
      intro x' hlive hx' hopen
      have hne : k ≠ .observer o := by
        rintro rfl
        rw [← isSome_subscriptionOf, hs, if_pos rfl] at hlive
        obtain ⟨d, hd⟩ := Option.isSome_iff_exists.1 hlive
        obtain ⟨-, n, hn⟩ := hc d hd
        cases hn
      have hsub : s'.subscriptionOf (.observer o) = s.subscriptionOf (.observer o) := by rw [hs, if_neg hne]
      rw [isLive_congr hsub] at hlive
      rw [hr] at hx'
      obtain ⟨x, hx, rfl⟩ := Option.map_eq_some_iff.1 hx'
      unfold Roll.without at hopen ⊢
      split
      next j t =>
        split
        next hj =>
          -- the token that is given back is another one
          subst hj
          obtain ⟨u, hu⟩ := h.told hlive hx (by simpa using hopen)
          refine ⟨u, List.mem_filter.2 ⟨hu, ?_⟩⟩
          have hut : u ≠ t := by
            rintro rfl
            exact hne (hw.apart hk (hw.owned hx hu))
          simpa using hut
        next hj => exact h.told hlive hx (by simpa [hj] using hopen)
      next hnot => exact h.told hlive hx (by simpa using hopen)
  | @joined k j hk hf hs hr =>
    have hne : k ≠ .observer o := by
      rintro rfl
      exact Nat.lt_irrefl _ (Nat.lt_of_lt_of_eq ho hk.symm)
    have hsub : s'.subscriptionOf (.observer o) = s.subscriptionOf (.observer o) := by rw [hs, if_neg hne]
    constructor
    case only => exact fun ht => h.only (hsub ▸ ht)
    case told =>
      intro x' hlive hx' hopen
      rw [isLive_congr hsub] at hlive
      rw [hr] at hx'
      obtain ⟨x, hx, rfl⟩ := Option.map_eq_some_iff.1 hx'
      split
      next hij =>
        subst hij
        unfold Roll.add at hopen ⊢
        split
        next hc => simp [hc] at hopen
        next hc =>
          obtain ⟨t, ht⟩ := h.told hlive hx (by simpa using hc)
          exact ⟨t, List.mem_append_left _ ht⟩
      next hij => exact h.told hlive hx (by simpa [hij] using hopen)
  | @ended j hs hr =>
    have hsub := congrFun hs (.observer o)
    constructor
    case only => exact fun ht => h.only (hsub ▸ ht)
    case told =>
      intro x' hlive hx' hopen
      rw [isLive_congr hsub] at hlive
      rw [hr] at hx'
      obtain ⟨x, hx, rfl⟩ := Option.map_eq_some_iff.1 hx'
      split
      next hij => simp [hij, Roll.ended] at hopen
      next hij => exact h.told hlive hx (by simpa [hij] using hopen)
  | @made j hj hf hs hr hx =>
    have hsub := congrFun hs (.observer o)
    have hij : j ≠ i := by
      rintro rfl
      omega
    constructor
    case only => exact fun ht => h.only (hsub ▸ ht)
    case told =>
      intro x hlive hx hopen
      exact h.told (isLive_congr hsub ▸ hlive) (hr i hij ▸ hx) hopen

theorem Placed.moves {E : Effect → Prop} {a b : Ghost × Session} (hm : Moves E a b) (hsound : Sound a.1.hand a.2)
    (hw : Wired a.2) (hi : i.number < a.2.store.fresh) (ho : o.number < a.2.store.fresh) (h : Placed a.2 i o) :
    Placed b.2 i o := by
  induction hm with
  | refl => exact h
  | tail hm hlast ih =>
    obtain ⟨e, -, hlast⟩ := hlast
    have hwired := hw.moves hm hsound
    have hf := Moves.fresh_le hm
    exact ih.rewires hwired (Nat.lt_of_lt_of_le hi hf) (Nat.lt_of_lt_of_le ho hf) (hlast.rewires hwired.released)

theorem Placed.opened
    (hs : s'.subscriptionOf (.observer o) = some (s.store.subscription i (.observer o)))
    (hr : ∀ j, s'.rollOf j = (s.rollOf j).map fun x => if i = j then x.add (.observer o) else x) : Placed s' i o where
  only ht := (subscription_iff.1 (Option.some.inj (hs ▸ ht))).1
  told := by
    intro x' _ hx' hopen
    rw [hr] at hx'
    obtain ⟨x, hx, rfl⟩ := Option.map_eq_some_iff.1 hx'
    rw [if_pos rfl, Roll.add] at hopen ⊢
    split
    next hc => simp [hc] at hopen
    · exact ⟨x.nextToken, by simp⟩

/-! ### What a registry keeps -/

/-- A registry has the live observer of each stream that is held, of those that it opened for it. -/
structure Kept (g : Ghost) (s : Session) : Prop where
  wired : Wired s
  entered {y : SystemId} {i : StreamId} {o : ObserverId} : s.systems.entryIn y i = some o → g.opened y i o
  once {y z : SystemId} {i j : StreamId} {o : ObserverId} : g.opened y i o → g.opened z j o → y = z ∧ i = j
  old {y : SystemId} {i : StreamId} {o : ObserverId} :
    g.opened y i o → i.number < s.store.fresh ∧ o.number < s.store.fresh
  current {y : SystemId} {i : StreamId} {o : ObserverId} :
    g.opened y i o → s.store.isLive o = true → g.hand (.stream i) → s.systems.entryIn y i = some o
  accounted {o : ObserverId} : s.store.isLive o = true → ∃ y i, g.opened y i o
  placed {y : SystemId} {i : StreamId} {o : ObserverId} : g.opened y i o → Placed s i o

theorem isLive_setObserver (t : Store) (o : ObserverId) (x : Observer) (p : ObserverId) :
    (t.setObserver o x).isLive p = if o = p then !x.isDestroyed else t.isLive p := by
  unfold Store.isLive Store.setObserver
  rw [Table.get?_insert]
  by_cases h : o = p <;> simp [h]

/-- Only an observer that is opened becomes live. -/
theorem Move.isLive {e : Effect} {a b : Ghost × Session} (hm : Move e a b) (h : b.2.store.isLive o = true) :
    a.2.store.isLive o = true ∨ o = ⟨a.2.store.fresh⟩ ∧ ∃ y i, b.1.opened y i o := by
  cases hm with
  | @opening g s y i =>
    rw [Store.isLive_openObserver, Bool.or_eq_true, beq_iff_eq] at h
    rcases h with rfl | h
    · exact .inr ⟨rfl, y, i, .inr ⟨rfl, rfl, rfl⟩⟩
    · exact .inl h
  | destroying =>
    rw [observers_close, isLive_setObserver] at h
    split at h
    · cases h
    · exact .inl h
  | erasing =>
    rw [observers_close] at h
    obtain ⟨x, hx, hd⟩ := Store.isLive_iff.1 h
    rw [Table.get?_erase] at hx
    split at hx
    · cases hx
    · exact .inl (Store.isLive_iff.2 ⟨x, hx, hd⟩)
  | @listening g s p x _ ho | @hearing g s p x _ _ _ ho =>
    rw [isLive_setObserver] at h
    split at h
    next he =>
      subst he
      have hx : (!x.isDestroyed) = true := h
      exact .inl (Store.isLive_iff.2 ⟨x, ho, by simpa using hx⟩)
    · exact .inl h
  | receiving ho =>
    rw [isLive_setObserver, Observer.isDestroyed_receive] at h
    split at h
    next he =>
      subst he
      exact .inl (Store.isLive_iff.2 ⟨_, ho, by simpa using h⟩)
    · exact .inl h
  | releasing =>
    rw [observers_close] at h
    exact .inl h
  | subscribing =>
    rw [Store.subscribe_eq] at h
    exact .inl h
  | _ => exact .inl h

theorem Kept.frame {e : Effect} {g' : Ghost} (hm : Move e (g, s) (g', s')) (hsound : Sound g.hand s) (h : Kept g s)
    (ho : g'.opened = g.opened)
    (he : ∀ y i o, s'.systems.entryIn y i = some o → s.systems.entryIn y i = some o)
    (hc : ∀ y i o, s.systems.entryIn y i = some o → s.store.isLive o = true → g'.hand (.stream i) →
      s'.systems.entryIn y i = some o)
    (hh : ∀ i, g'.hand (.stream i) → g.hand (.stream i) ∨ i = ⟨s.store.fresh⟩) : Kept g' s' := by
  have hf : s.store.fresh ≤ s'.store.fresh := hm.fresh_le
  constructor
  case wired => exact h.wired.move hm hsound
  case entered =>
    intro y i o hy
    rw [ho]
    exact h.entered (he y i o hy)
  case once =>
    rw [ho]
    exact h.once
  case old =>
    intro y i o hy
    rw [ho] at hy
    have := h.old hy
    omega
  case current =>
    intro y i o hy hlive hi
    rw [ho] at hy
    obtain ⟨hiold, hoold⟩ := h.old hy
    have hlive : s.store.isLive o = true := (hm.isLive hlive).resolve_right fun hnew => by
      obtain ⟨rfl, -⟩ := hnew
      exact Nat.lt_irrefl _ hoold
    have hi' : g.hand (.stream i) := (hh i hi).resolve_right fun hnew => by
      subst hnew
      exact Nat.lt_irrefl _ hiold
    exact hc y i o (h.current hy hlive hi') hlive hi
  case accounted =>
    intro o hlive
    rcases hm.isLive hlive with hlive | ⟨-, hnew⟩
    · rw [ho]
      exact h.accounted hlive
    · exact hnew
  case placed =>
    intro y i o hy
    rw [ho] at hy
    obtain ⟨hiold, hoold⟩ := h.old hy
    exact (h.placed hy).rewires h.wired hiold hoold (hm.rewires h.wired.released)

/-- A move that has nothing to do with registries. -/
theorem Kept.alone {e : Effect} {g' : Ghost} (hm : Move e (g, s) (g', s')) (hsound : Sound g.hand s) (h : Kept g s)
    (hg : g' = g) (hs : s'.systems = s.systems) : Kept g' s' := by
  subst hg
  refine h.frame hm hsound rfl ?_ ?_ fun _ => .inl
  · rw [hs]
    exact fun _ _ _ => id
  · rw [hs]
    exact fun _ _ _ ho _ _ => ho

/-- A registry without a live observer of a stream may open one. -/
theorem Kept.opening {t : Table SystemId System} (hi : g.hand (.stream i)) (hsound : Sound g.hand s) (h : Kept g s)
    (hm : Move .silent (g, s)
      ({ g with opened := fun z j o => g.opened z j o ∨ z = y ∧ j = i ∧ o = ⟨s.store.fresh⟩ },
        { s with store := (s.store.openObserver i).1, systems := t }))
    (hfree : ∀ o, s.systems.entryIn y i = some o → s.store.isLive o = false)
    (he : ∀ z j, t.entryIn z j = if y = z ∧ i = j then some ⟨s.store.fresh⟩ else s.systems.entryIn z j) :
    Kept { g with opened := fun z j o => g.opened z j o ∨ z = y ∧ j = i ∧ o = ⟨s.store.fresh⟩ }
      { s with store := (s.store.openObserver i).1, systems := t } := by
  have hwired := h.wired.move hm hsound
  have hiold : i.number < s.store.fresh := hsound.old (hsound.known hi)
  have hnew : ∀ {z j}, ¬g.opened z j ⟨s.store.fresh⟩ := fun hz => Nat.lt_irrefl _ (h.old hz).2
  constructor
  case wired => exact hwired
  case entered =>
    intro z j o hz
    simp only [he] at hz
    split at hz
    next heq =>
      obtain ⟨rfl, rfl⟩ := heq
      exact .inr ⟨rfl, rfl, (Option.some.inj hz).symm⟩
    · exact .inl (h.entered hz)
  case once =>
    rintro z z' j j' o (hz | ⟨rfl, rfl, rfl⟩) (hz' | ⟨rfl, rfl, he'⟩)
    · exact h.once hz hz'
    · exact absurd (he' ▸ hz) hnew
    · exact absurd hz' hnew
    · exact ⟨rfl, rfl⟩
  case old =>
    have hf : s.store.fresh < (s.store.openObserver i).1.fresh := by
      rw [Store.openObserver_eq]
      exact Nat.lt_succ_self _
    rintro z j o (hz | ⟨rfl, rfl, rfl⟩)
    · exact ⟨Nat.lt_trans (h.old hz).1 hf, Nat.lt_trans (h.old hz).2 hf⟩
    · exact ⟨Nat.lt_trans hiold hf, hf⟩
  case current =>
    rintro z j o (hz | ⟨rfl, rfl, rfl⟩) hlive hj
    · have hlive : s.store.isLive o = true := (hm.isLive hlive).resolve_right fun hnew' => hnew (hnew'.1 ▸ hz)
      have hentry := h.current hz hlive hj
      simp only [he]
      rw [if_neg, hentry]
      -- the registry had no live observer of this stream
      rintro ⟨rfl, rfl⟩
      rw [hfree o hentry] at hlive
      cases hlive
    · simp only [he, and_self, if_true]
  case accounted =>
    intro o hlive
    rcases hm.isLive hlive with hlive | ⟨-, hnew⟩
    · obtain ⟨z, j, hz⟩ := h.accounted hlive
      exact ⟨z, j, .inl hz⟩
    · exact hnew
  case placed =>
    rintro z j o (hz | ⟨rfl, rfl, rfl⟩)
    · obtain ⟨hjold, hoold⟩ := h.old hz
      exact (h.placed hz).rewires h.wired hjold hoold (hm.rewires h.wired.released)
    · refine .opened (s := s) ?_ fun k => ?_
      · rw [subscriptionOf_openObserver, if_pos rfl]
      · exact rollOf_openObserver s j t k

/-- Every move keeps what registries have and who is told. -/
theorem Kept.move {e : Effect} {a b : Ghost × Session} (hm : Move e a b) (hsound : Sound a.1.hand a.2) (h : Kept a.1 a.2) :
    Kept b.1 b.2 := by
  have hmove := hm
  cases hm with
  | opening hi hy hfree hs hc he => exact h.opening hi hsound hmove hfree he
  | systems hk hs hc he hl => exact h.frame hmove hsound rfl he hl fun _ => .inl
  | narrowing =>
    exact h.frame hmove hsound rfl (fun _ _ _ => id) (fun _ _ _ ho _ _ => ho) fun _ hi => .inl (hsound.held _ hi)
  | newStream =>
    refine h.frame hmove hsound rfl (fun _ _ _ => id) (fun _ _ _ ho _ _ => ho) fun i hi => ?_
    exact hi.imp_right Shared.stream.inj
  | newObject =>
    refine h.frame hmove hsound rfl (fun _ _ _ => id) (fun _ _ _ ho _ _ => ho) fun i hi => ?_
    exact hi.imp_right nofun
  | destroying | erasing | releasing => exact h.alone hmove hsound rfl (close_systems ..)
  | _ => exact h.alone hmove hsound rfl rfl

/-! ### Runs -/

theorem Kept.moves {E : Effect → Prop} {a b : Ghost × Session} (hm : Moves E a b) (hsound : Sound a.1.hand a.2)
    (h : Kept a.1 a.2) : Kept b.1 b.2 := by
  induction hm with
  | refl => exact h
  | tail hm hlast ih =>
    obtain ⟨e, -, hlast⟩ := hlast
    exact ih.move hlast (hsound.moves hm)

/-- What was opened stays opened. -/
theorem Moves.opened_mono {E : Effect → Prop} {a b : Ghost × Session} (hm : Moves E a b) (h : a.1.opened y i o) :
    b.1.opened y i o := by
  induction hm with
  | refl => exact h
  | tail _ hlast ih =>
    obtain ⟨e, -, hlast⟩ := hlast
    cases hlast with
    | opening => exact .inl ih
    | _ => exact ih

theorem kept_empty : Kept (bare {}) {} where
  wired :=
    { released := fun o x h => by cases h
      old := fun {k} h => by cases k <;> cases h
      owned := fun h => by cases h
      apart := fun {k} _ _ _ h => by cases k <;> cases h
      issued := fun {k} _ _ h => by cases k <;> cases h }
  entered h := by cases h
  once h := h.elim
  old h := h.elim
  current h := h.elim
  accounted h := by cases h
  placed h := h.elim

theorem kept_initial : Kept initial.bare initial := by
  have hsound : Sound (bare {}).hand initial := sound_empty.moves moves_initial
  exact (kept_empty.moves moves_initial sound_empty).move .narrowing hsound

/-- In every run, subscriptions and rolls agree. -/
theorem wired_play (as : List Act) : Wired (initial.play as) ∧ Enrolled (initial.play as) := by
  have henrolled : Enrolled initial := by
    intro k i n x hk
    cases k <;> cases hk
  obtain ⟨g, hm⟩ := moves_play sound_initial (fun _ _ _ => False) as
  exact ⟨kept_initial.wired.moves hm sound_initial, henrolled.moves hm sound_initial kept_initial.wired⟩

/-- Whether, at some point of the run, the system's registry had the observer for the stream. -/
def Opened (as : List Act) (y : SystemId) (i : StreamId) (o : ObserverId) : Prop :=
  ∃ bs, bs <+: as ∧ (initial.play bs).systems.entryIn y i = some o

/-- With what registries keep, a run keeps whatever else every move keeps. -/
theorem exists_kept_and {I : Ghost → Session → Prop}
    (hmove : ∀ {e : Effect} {a b : Ghost × Session}, Move e a b → Kept a.1 a.2 → I a.1 a.2 → I b.1 b.2)
    (hempty : I (bare {}) {}) (as : List Act) :
    ∃ opened, Kept ((initial.play as).atRest opened) (initial.play as) ∧
      I ((initial.play as).atRest opened) (initial.play as) ∧ ∀ y i o, Opened as y i o → opened y i o := by
  have hmoves : ∀ {E : Effect → Prop} {a b : Ghost × Session}, Moves E a b → Sound a.1.hand a.2 →
      Kept a.1 a.2 → I a.1 a.2 → I b.1 b.2 := by
    intro E a b hm hsound hk h
    induction hm with
    | refl => exact h
    | tail hm hlast ih =>
      obtain ⟨e, -, hlast⟩ := hlast
      exact hmove hlast (hk.moves hm hsound) ih
  induction as using List.reverseRecOn with
  | nil =>
    have hstart := hmoves moves_initial sound_empty kept_empty hempty
    have hkept := kept_empty.moves moves_initial sound_empty
    refine ⟨_, kept_initial, hmove .narrowing hkept hstart, fun y i o ho => ?_⟩
    obtain ⟨bs, hbs, ho⟩ := ho
    obtain rfl := List.prefix_nil.1 hbs
    exact kept_initial.entered ho
  | append_singleton as a ih =>
    obtain ⟨opened, hkept, h, hopened⟩ := ih
    have hsound := sound_initial.play as
    obtain ⟨g, hm⟩ := moves_act hsound opened a
    have hkept' := hkept.moves hm hsound
    rw [play_append]
    refine ⟨g.opened, hkept'.move .narrowing (hsound.moves hm), hmove .narrowing hkept' (hmoves hm hsound hkept h),
      fun y i o ho => ?_⟩
    obtain ⟨bs, hbs, ho⟩ := ho
    rcases List.prefix_concat_iff.1 hbs with rfl | hbs
    · rw [play_append] at ho
      exact hkept'.entered ho
    · exact hm.opened_mono (hopened y i o ⟨bs, hbs, ho⟩)

theorem exists_kept (as : List Act) :
    ∃ opened, Kept ((initial.play as).atRest opened) (initial.play as) ∧ ∀ y i o, Opened as y i o → opened y i o := by
  obtain ⟨opened, hkept, -, hopened⟩ := exists_kept_and (I := fun _ _ => True) (fun _ _ _ => trivial) trivial as
  exact ⟨opened, hkept, hopened⟩

/-- Whether the sink is an observer that the system's registry opened for the stream. -/
def OpenedSink (as : List Act) (y : SystemId) (i : StreamId) : Sink → Prop
  | .observer o => Opened as y i o
  | .handler _ => False

/-- After the run, the system has at most one live observer of the stream. -/
structure HasOne (as : List Act) (y : SystemId) (z : System) (i : StreamId) (s : Session) : Prop where
  /-- Of those that its registry opened, no two are live. -/
  unique {o p : ObserverId} :
    Opened as y i o → Opened as y i p → s.store.isLive o = true → s.store.isLive p = true → o = p
  /-- The registry has the one that is live. -/
  has {o : ObserverId} : z.registry.get? s.store i = some o ↔ Opened as y i o ∧ s.store.isLive o = true
  /-- It is handed out again, and nothing is opened. -/
  again {o : ObserverId} :
    z.registry.get? s.store i = some o → z.registry.observerFor s.isAlive s.store i = (s.store, z.registry, o)
  /-- Whatever is handed out is live. -/
  live : (z.registry.observerFor s.isAlive s.store i).1.isLive (z.registry.observerFor s.isAlive s.store i).2.2 = true
  /-- A subject that has not ended tells it, and tells no other observer of the registry. -/
  told {x : Subject} {o : ObserverId} : s.store.streams.get? i = some (.subject x) → x.isClosed = false →
    z.registry.get? s.store i = some o →
      ∃ t, (t, .observer o) ∈ x.sinks ∧ ∀ e ∈ x.sinks, OpenedSink as y i e.2 → e = (t, .observer o)
  /-- Without a live observer, it tells none of the registry. -/
  untold {x : Subject} : s.store.streams.get? i = some (.subject x) → z.registry.get? s.store i = none →
    ∀ e ∈ x.sinks, ¬OpenedSink as y i e.2
  /-- All observers that it tells are those of registries. -/
  known {x : Subject} {t : Nat} {o : ObserverId} : s.store.streams.get? i = some (.subject x) →
    (t, .observer o) ∈ x.sinks → ∃ y', Opened as y' i o

/-- Whatever happens, a registry has one live observer at most of a stream that is held. -/
theorem hasOne_play (as : List Act) {y : SystemId} {z : System} {i : StreamId}
    (hz : (initial.play as).systems.get? y = some z) (hi : (initial.play as).isAlive i = true) :
    HasOne as y z i (initial.play as) := by
  obtain ⟨opened, hkept, hopened⟩ := exists_kept as
  have hcurrent : ∀ {y' o}, opened y' i o → (initial.play as).store.isLive o = true →
      (initial.play as).systems.entryIn y' i = some o := fun ho hlive => hkept.current ho hlive (isAlive_iff.1 hi)
  have hentry := entryIn_of_get? hz i
  have hnow : ∀ {y' o}, (initial.play as).systems.entryIn y' i = some o → Opened as y' i o :=
    fun ho => ⟨as, List.prefix_refl as, ho⟩
  have hget : ∀ {o}, z.registry.get? (initial.play as).store i = some o ↔
      Opened as y i o ∧ (initial.play as).store.isLive o = true := by
    intro o
    rw [Registry.get?_eq_some, ← hentry]
    constructor
    · exact fun ⟨he, hlive⟩ => ⟨hnow he, hlive⟩
    · exact fun ⟨ho, hlive⟩ => ⟨hcurrent (hopened y i o ho) hlive, hlive⟩
  have hsub : ∀ {x t o}, (initial.play as).store.streams.get? i = some (.subject x) → (t, .observer o) ∈ x.sinks →
      (initial.play as).subscriptionOf (.observer o) = some (.subject i t) :=
    fun hx ht => hkept.wired.owned (rollOf_of_get? hx) ht
  have hlive : ∀ {x t o}, (initial.play as).store.streams.get? i = some (.subject x) → (t, .observer o) ∈ x.sinks →
      (initial.play as).store.isLive o = true := by
    intro x t o hx ht
    rw [← isSome_subscriptionOf, hsub hx ht]
    rfl
  constructor
  case unique =>
    intro o p ho hp hlo hlp
    exact Option.some.inj ((hget.2 ⟨ho, hlo⟩).symm.trans (hget.2 ⟨hp, hlp⟩))
  case has => exact hget
  case again => exact fun ho => Registry.observerFor_of_get? ho
  case live => exact Registry.isLive_observerFor ..
  case told =>
    intro x o hx hopen ho
    obtain ⟨hop, hol⟩ := hget.1 ho
    obtain ⟨t, ht⟩ := (hkept.placed (hopened y i o hop)).told hol (rollOf_of_get? hx) hopen
    refine ⟨t, ht, ?_⟩
    rintro ⟨u, k⟩ hu hk
    cases k with
    | handler k => exact hk.elim
    | observer p =>
      obtain rfl : p = o := Option.some.inj ((hget.2 ⟨hk, hlive hx hu⟩).symm.trans ho)
      -- both have the same subscription
      have hsame := (hsub hx hu).symm.trans (hsub hx ht)
      obtain ⟨-, rfl⟩ := Subscription.subject.inj (Option.some.inj hsame)
      rfl
  case untold =>
    rintro x hx hnone ⟨u, k⟩ hu hk
    cases k with
    | handler k => exact hk
    | observer p =>
      have := hget.2 ⟨hk, hlive hx hu⟩
      rw [hnone] at this
      cases this
  case known =>
    intro x t o hx ht
    obtain ⟨y', j, ho⟩ := hkept.accounted (hlive hx ht)
    obtain rfl := (hkept.placed ho).only (hsub hx ht)
    exact ⟨y', hnow (hcurrent ho (hlive hx ht))⟩

/-- It is so of a system that observes a subject after another system did. -/
theorem hasOne_play_second :
    let as : List Act := [.command (.makeSubject "s" none), .command (.makeSystem "other" {}),
      .command (.observe "main" "s" (some "o")), .command (.observe "other" "s" (some "p"))]
    ∃ z, (initial.play as).systems.get? ⟨2⟩ = some z ∧ (initial.play as).isAlive ⟨1⟩ = true ∧
      HasOne as ⟨2⟩ z ⟨1⟩ (initial.play as) := by
  intro as
  have hsome : ((initial.play as).systems.get? ⟨2⟩).isSome = true := by decide +kernel
  obtain ⟨z, hz⟩ := Option.isSome_iff_exists.1 hsome
  have hi : (initial.play as).isAlive ⟨1⟩ = true := by decide +kernel
  exact ⟨z, hz, hi, hasOne_play as hz hi⟩

end Session

end DataBinding
