import DataBinding.Proofs.Rebinding
import DataBinding.Proofs.Wiring

/-!
# Turnover

A sink that leaves a cold stream puts that on record, and so the record tells which subscriptions were released. From
one session to another, some sinks are subscribed to cold streams and some subscriptions are released (`Turnover`).
Observers are released when nothing holds them any more: a session is attended when whatever observer it has is held
(`Attended`). While one hold after another is given up there are strays, which are not held and not released yet
(`Tends`). Most of what a session does leaves all of this alone (`Undisturbed`).
-/

namespace DataBinding

/-- The cold stream whose subscription it is. -/
def Subscription.label? : Subscription → Option String
  | .cold label => some label
  | .closed | .subject .. => none

def Stream.label? : Stream → Option String
  | .cold label _ => some label
  | .subject _ => none

/-- The cold stream whose subscription was released. -/
def LogEntry.released? : LogEntry → Option String
  | .teardown label => some label
  | _ => none

/-- The label of a stream that is cold. -/
def Store.labelOf (s : Store) (i : StreamId) : Option String := (s.streams.get? i).bind Stream.label?

namespace Session

variable {new new' gone gone' : List (Sink × String)} {os os' os'' : List ObserverId} {s t u : Session} {k : Sink}
  {label label' : String} {o : ObserverId} {b : BindingId} {x : Binding}

/-- The cold streams whose subscriptions were released so far, in this order. -/
def released (s : Session) : List String := s.log.filterMap LogEntry.released?

/-- The cold stream that a sink has a subscription to. -/
def coldOf (s : Session) (k : Sink) : Option String := (s.subscriptionOf k).bind Subscription.label?

/-- From `s` to `t`, the sinks in `new` are subscribed to cold streams, and the subscriptions in `gone` are released, in
this order. -/
structure Turnover (new gone : List (Sink × String)) (s t : Session) : Prop where
  fresh : s.store.fresh ≤ t.store.fresh
  noted : t.released = s.released ++ gone.map (·.2)
  once : (gone.map (·.1)).Nodup
  gone_iff {k : Sink} {label : String} :
    (k, label) ∈ gone ↔ (s.coldOf k = some label ∨ (k, label) ∈ new) ∧ t.coldOf k = none
  kept {k : Sink} {label : String} : t.coldOf k = some label → s.coldOf k = some label ∨ (k, label) ∈ new
  made {k : Sink} {label : String} : (k, label) ∈ new → s.store.fresh ≤ k.number ∧ k.number < t.store.fresh
  alone {k : Sink} {label label' : String} : (k, label) ∈ new → (k, label') ∈ new → label = label'
  labels {i : StreamId} : i.number < s.store.fresh → t.store.labelOf i = s.store.labelOf i
  entries {y : SystemId} {i : StreamId} {o : ObserverId} : t.systems.entryIn y i = some o →
    s.systems.entryIn y i = some o ∨ (i.number < t.store.fresh ∧ o.number < t.store.fresh) ∧
      ∀ label, t.store.labelOf i = some label → (.observer o, label) ∈ new

/-! ### Who holds an observer -/

/-- The record of something in the table covers the observer. -/
def IsCovered {k : Thing} {α : Type} (f : α → Observations) (m : Table (Id k) α) (o : ObserverId) : Prop :=
  ∃ l a, m.get? l = some a ∧ (f a).covers (.observer o) = true

/-- The observer is held. -/
inductive Holding (s : Session) (o : ObserverId) : Prop
  | name {n : String} : s.names.get? ⟨.observer, n⟩ = some o.number → Holding s o
  | task : .keep o.ref ∈ s.pending → Holding s o
  | binding : IsCovered Binding.observations s.bindings o → Holding s o
  | record : IsCovered id s.records o → Holding s o

theorem Holding.of_eq (hn : t.names = s.names) (hp : t.pending = s.pending) (hb : t.bindings = s.bindings)
    (hr : t.records = s.records) (h : Holding s o) : Holding t o := by
  rcases h with h | h | h | h
  · exact .name (hn ▸ h)
  · exact .task (hp ▸ h)
  · exact .binding (hb ▸ h)
  · exact .record (hr ▸ h)

theorem holding_congr (hn : t.names = s.names) (hp : t.pending = s.pending) (hb : t.bindings = s.bindings)
    (hr : t.records = s.records) : Holding t o ↔ Holding s o :=
  ⟨.of_eq hn.symm hp.symm hb.symm hr.symm, .of_eq hn hp hb hr⟩

/-- Where only bindings differ, only what these hold is at issue. -/
theorem Holding.rebound {m : Table BindingId Binding} {P : Prop} (h : Holding s o)
    (hb : IsCovered Binding.observations s.bindings o → IsCovered Binding.observations m o ∨ P) :
    Holding { s with bindings := m } o ∨ P := by
  rcases h with hn | ht | hc | hr
  · exact .inl (.name hn)
  · exact .inl (.task ht)
  · exact (hb hc).imp_left .binding
  · exact .inl (.record hr)

/-- Where only records of the host differ, only what these hold is at issue. -/
theorem Holding.rerecorded {m : Table RecordId Observations} {P : Prop} (h : Holding s o)
    (hr : IsCovered id s.records o → IsCovered id m o ∨ P) : Holding { s with records := m } o ∨ P := by
  rcases h with hn | ht | hb | hc
  · exact .inl (.name hn)
  · exact .inl (.task ht)
  · exact .inl (.binding hb)
  · exact (hr hc).imp_left .record

theorem isHeld_iff : s.isHeld o.ref = true ↔ Holding s o := by
  have hnamed : s.isNamed o.ref = true ↔ ∃ n, s.names.get? ⟨.observer, n⟩ = some o.number := by
    unfold isNamed
    rw [List.any_eq_true]
    constructor
    · rintro ⟨⟨⟨k, n⟩, m⟩, he, h⟩
      obtain ⟨rfl, rfl⟩ : k = .observer ∧ m = o.number := of_decide_eq_true h
      exact ⟨n, Table.mem_entries.1 he⟩
    · rintro ⟨n, hn⟩
      exact ⟨_, Table.mem_entries.2 hn, by simp [Id.ref]⟩
  have hkept : s.isKept o.ref = true ↔ .keep o.ref ∈ s.pending := by
    unfold isKept
    rw [List.any_eq_true]
    constructor
    · rintro ⟨t, ht, h⟩
      cases t with
      | keep r => exact of_decide_eq_true h ▸ ht
      | _ => cases h
    · exact fun h => ⟨_, h, by simp⟩
  have hobserved : s.isObserved (.observer o) = true ↔
      IsCovered Binding.observations s.bindings o ∨ IsCovered id s.records o := by
    unfold isObserved observations
    simp only [List.any_append, Bool.or_eq_true, List.any_eq_true, List.mem_map, Table.mem_values]
    constructor
    · rintro (⟨r, ⟨x, ⟨b, hb⟩, rfl⟩, hr⟩ | ⟨r, ⟨i, hi⟩, hr⟩)
      · exact .inl ⟨b, x, hb, hr⟩
      · exact .inr ⟨i, r, hi, hr⟩
    · rintro (⟨b, x, hb, hr⟩ | ⟨i, r, hi, hr⟩)
      · exact .inl ⟨_, ⟨x, ⟨b, hb⟩, rfl⟩, hr⟩
      · exact .inr ⟨r, ⟨i, hi⟩, hr⟩
  have hthing : o.ref.thing = .observer ∧ (⟨o.ref.number⟩ : ObserverId) = o := ⟨rfl, rfl⟩
  unfold isHeld
  rw [hthing.2]
  simp only [hthing.1, decide_true, Bool.true_and, Bool.or_eq_true, hnamed, hkept, hobserved]
  constructor
  · rintro ((⟨n, hn⟩ | ht) | hb | hr)
    · exact .name hn
    · exact .task ht
    · exact .binding hb
    · exact .record hr
  · rintro (hn | ht | hb | hr)
    · exact .inl (.inl ⟨_, hn⟩)
    · exact .inl (.inr ht)
    · exact .inr (.inl hb)
    · exact .inr (.inr hr)

/-- The observers that there are are held, but for those among `os`, and what is held is there. -/
structure Attended (os : List ObserverId) (s : Session) : Prop where
  present {o : ObserverId} : Holding s o → (s.store.observers.get? o).isSome
  held {o : ObserverId} : (s.store.observers.get? o).isSome → Holding s o ∨ o ∈ os
  released : Released s
  /-- What is there is not new. -/
  observers {o : ObserverId} : (s.store.observers.get? o).isSome → o.number < s.store.fresh
  sinks {k : Sink} {label : String} : s.coldOf k = some label → k.number < s.store.fresh
  entered {y : SystemId} {i : StreamId} {o : ObserverId} : s.systems.entryIn y i = some o →
    i.number < s.store.fresh ∧ o.number < s.store.fresh
  bindings {b : BindingId} : (s.bindings.get? b).isSome → b.number < s.store.fresh
  records {i : RecordId} : (s.records.get? i).isSome → i.number < s.store.fresh

/-- If the strays are among `os` in `s`, then they are among `os'` in `t`, and `new` has been subscribed to cold streams
from the one to the other. -/
def Tends (new : List (Sink × String)) (os os' : List ObserverId) (s t : Session) : Prop :=
  Attended os s → (∃ gone, Turnover new gone s t) ∧ Attended os' t

theorem Attended.mono (h : Attended os s) (hos : ∀ o ∈ os, o ∈ os') : Attended os' s :=
  { h with held := fun ho => (h.held ho).imp_right (hos _) }

/-! ### One after another -/

/-- Nothing is released where every sink keeps its cold stream. -/
theorem Turnover.taking (hfresh : s.store.fresh ≤ t.store.fresh) (hnoted : t.released = s.released)
    (hold : ∀ {k label}, s.coldOf k = some label → t.coldOf k = some label)
    (hnew : ∀ {k label}, (k, label) ∈ new →
      t.coldOf k = some label ∧ s.store.fresh ≤ k.number ∧ k.number < t.store.fresh)
    (hkept : ∀ {k label}, t.coldOf k = some label → s.coldOf k = some label ∨ (k, label) ∈ new)
    (hlabels : ∀ {i : StreamId}, i.number < s.store.fresh → t.store.labelOf i = s.store.labelOf i)
    (hentries : ∀ {y i o}, t.systems.entryIn y i = some o →
      s.systems.entryIn y i = some o ∨ (i.number < t.store.fresh ∧ o.number < t.store.fresh) ∧
        ∀ label, t.store.labelOf i = some label → (.observer o, label) ∈ new) :
    Turnover new [] s t where
  fresh := hfresh
  noted := by rw [hnoted, List.map_nil, List.append_nil]
  once := .nil
  gone_iff {k label} := by
    refine iff_of_false List.not_mem_nil ?_
    rintro ⟨hk, hnone⟩
    have hsome : t.coldOf k = some label := hk.elim hold fun hk => (hnew hk).1
    rw [hnone] at hsome
    cases hsome
  kept := hkept
  made hk := (hnew hk).2
  alone hk hk' := Option.some.inj ((hnew hk).1.symm.trans (hnew hk').1)
  labels := hlabels
  entries := hentries

theorem Turnover.same (hfresh : s.store.fresh ≤ t.store.fresh) (hnoted : t.released = s.released)
    (hcold : ∀ k, t.coldOf k = s.coldOf k)
    (hlabels : ∀ {i : StreamId}, i.number < s.store.fresh → t.store.labelOf i = s.store.labelOf i)
    (hentries : ∀ {y i o}, t.systems.entryIn y i = some o → s.systems.entryIn y i = some o) : Turnover [] [] s t :=
  .taking hfresh hnoted (fun hk => (hcold _).trans hk) (fun hk => absurd hk List.not_mem_nil)
    (fun hk => .inl ((hcold _).symm.trans hk)) hlabels fun he => .inl (hentries he)

theorem Turnover.refl : Turnover [] [] s s := .same (Nat.le_refl _) rfl (fun _ => rfl) (fun _ => rfl) id

theorem Turnover.trans (hs : Attended os s) (ht : Attended os' t) (h : Turnover new gone s t)
    (h' : Turnover new' gone' t u) : Turnover (new ++ new') (gone ++ gone') s u := by
  -- what has been there before `t` is not subscribed again
  have holdT : ∀ {k label}, s.coldOf k = some label ∨ (k, label) ∈ new → k.number < t.store.fresh := by
    rintro k label (hk | hk)
    · exact Nat.lt_of_lt_of_le (hs.sinks hk) h.fresh
    · exact (h.made hk).2
  have hstays : ∀ {k label label'}, (s.coldOf k = some label ∨ (k, label) ∈ new) → u.coldOf k = some label' →
      t.coldOf k = some label' := by
    intro k label label' hk hu
    rcases h'.kept hu with hu | hu
    · exact hu
    · exact absurd (holdT hk) (Nat.not_lt.2 (h'.made hu).1)
  constructor
  case fresh => exact Nat.le_trans h.fresh h'.fresh
  case noted => rw [h'.noted, h.noted, List.map_append, List.append_assoc]
  case once =>
    rw [List.map_append]
    refine List.nodup_append.2 ⟨h.once, h'.once, ?_⟩
    rintro k hk _ hk' rfl
    obtain ⟨⟨_, label⟩, hmem, rfl⟩ := List.mem_map.1 hk
    obtain ⟨⟨k', label'⟩, hmem', heq⟩ := List.mem_map.1 hk'
    obtain rfl : k' = _ := heq
    obtain ⟨hfrom, hnone⟩ := h.gone_iff.1 hmem
    rcases (h'.gone_iff.1 hmem').1 with ht | hnew
    · exact absurd (hnone.symm.trans ht) nofun
    · exact absurd (holdT hfrom) (Nat.not_lt.2 (h'.made hnew).1)
  case gone_iff =>
    intro k label
    rw [List.mem_append, List.mem_append]
    constructor
    · rintro (hk | hk)
      · obtain ⟨hfrom, hnone⟩ := h.gone_iff.1 hk
        refine ⟨hfrom.imp_right .inl, Option.eq_none_iff_forall_ne_some.2 fun l hu => ?_⟩
        exact absurd (hnone.symm.trans (hstays hfrom hu)) nofun
      · obtain ⟨hfrom, hnone⟩ := h'.gone_iff.1 hk
        refine ⟨?_, hnone⟩
        rcases hfrom with ht | hnew
        · exact (h.kept ht).imp_right .inl
        · exact .inr (.inr hnew)
    · rintro ⟨hfrom, hnone⟩
      have hfrom : (s.coldOf k = some label ∨ (k, label) ∈ new) ∨ (k, label) ∈ new' := by tauto
      rcases hfrom with hfrom | hnew
      · cases ht : t.coldOf k with
        | none => exact .inl (h.gone_iff.2 ⟨hfrom, ht⟩)
        | some l =>
          -- a sink has one subscription
          have hl : l = label := by
            rcases hfrom with hk | hk <;> rcases h.kept ht with hk' | hk'
            · exact Option.some.inj (hk'.symm.trans hk)
            · exact absurd (hs.sinks hk) (Nat.not_lt.2 (h.made hk').1)
            · exact absurd (hs.sinks hk') (Nat.not_lt.2 (h.made hk).1)
            · exact h.alone hk' hk
          exact .inr (h'.gone_iff.2 ⟨.inl (hl ▸ ht), hnone⟩)
      · exact .inr (h'.gone_iff.2 ⟨.inr hnew, hnone⟩)
  case kept =>
    intro k label hu
    rw [List.mem_append]
    rcases h'.kept hu with ht | hnew
    · exact (h.kept ht).imp_right .inl
    · exact .inr (.inr hnew)
  case made =>
    intro k label hk
    rcases List.mem_append.1 hk with hk | hk
    · exact ⟨(h.made hk).1, Nat.lt_of_lt_of_le (h.made hk).2 h'.fresh⟩
    · exact ⟨Nat.le_trans h.fresh (h'.made hk).1, (h'.made hk).2⟩
  case alone =>
    intro k label label' hk hk'
    rcases List.mem_append.1 hk with hk | hk <;> rcases List.mem_append.1 hk' with hk' | hk'
    · exact h.alone hk hk'
    · exact absurd (h.made hk).2 (Nat.not_lt.2 (h'.made hk').1)
    · exact absurd (h.made hk').2 (Nat.not_lt.2 (h'.made hk).1)
    · exact h'.alone hk hk'
  case labels => exact fun hi => (h'.labels (Nat.lt_of_lt_of_le hi h.fresh)).trans (h.labels hi)
  case entries =>
    intro y i o he
    rcases h'.entries he with he | ⟨hi, hnew⟩
    · obtain ⟨hi, ho⟩ := ht.entered he
      rcases h.entries he with he | ⟨-, hnew⟩
      · exact .inl he
      · refine .inr ⟨⟨Nat.lt_of_lt_of_le hi h'.fresh, Nat.lt_of_lt_of_le ho h'.fresh⟩, fun label hlabel =>
          List.mem_append_left _ (hnew label ?_)⟩
        rw [← h'.labels hi, hlabel]
    · exact .inr ⟨hi, fun label hlabel => List.mem_append_right _ (hnew label hlabel)⟩

namespace Tends

theorem refl : Tends [] os os s s := fun h => ⟨⟨_, .refl⟩, h⟩

theorem trans (h : Tends new os os' s t) (h' : Tends new' os' os'' t u) : Tends (new ++ new') os os'' s u := by
  intro hs
  obtain ⟨⟨gone, hgone⟩, ht⟩ := h hs
  obtain ⟨⟨gone', hgone'⟩, hu⟩ := h' ht
  exact ⟨⟨_, hgone.trans hs ht hgone'⟩, hu⟩

/-- Afterwards nothing is subscribed any more. -/
theorem before (h : Tends new os os' s t) (h' : Tends [] os' os'' t u) : Tends new os os'' s u := by
  simpa using h.trans h'

end Tends

/-- A session after a turnover is attended if its observers are. -/
theorem Attended.turnover (h : Attended os s) (ht : Turnover new gone s t)
    (present : ∀ o, Holding t o → (t.store.observers.get? o).isSome)
    (held : ∀ o, (t.store.observers.get? o).isSome → Holding t o ∨ o ∈ os') (hreleased : Released t)
    (observers : ∀ o, (t.store.observers.get? o).isSome → (s.store.observers.get? o).isSome ∨ o.number < t.store.fresh)
    (bindings : ∀ b, (t.bindings.get? b).isSome → (s.bindings.get? b).isSome ∨ b.number < t.store.fresh)
    (records : ∀ i, (t.records.get? i).isSome → (s.records.get? i).isSome ∨ i.number < t.store.fresh) :
    Attended os' t where
  present := present _
  held := held _
  released := hreleased
  observers ho := (observers _ ho).elim (fun ho => Nat.lt_of_lt_of_le (h.observers ho) ht.fresh) id
  sinks hk := by
    rcases ht.kept hk with hk | hk
    · exact Nat.lt_of_lt_of_le (h.sinks hk) ht.fresh
    · exact (ht.made hk).2
  entered he := by
    rcases ht.entries he with he | ⟨hi, -⟩
    · exact (h.entered he).imp (Nat.lt_of_lt_of_le · ht.fresh) (Nat.lt_of_lt_of_le · ht.fresh)
    · exact hi
  bindings hb := (bindings _ hb).elim (fun hb => Nat.lt_of_lt_of_le (h.bindings hb) ht.fresh) id
  records hi := (records _ hi).elim (fun hi => Nat.lt_of_lt_of_le (h.records hi) ht.fresh) id

/-! ### Where nothing is released -/

/-- Nothing is subscribed, released, or let go from `s` to `t`. -/
structure Undisturbed (s t : Session) : Prop where
  fresh : s.store.fresh ≤ t.store.fresh := by exact Nat.le_refl _
  noted : t.released = s.released := by rfl
  sinks : t.subscriptionOf = s.subscriptionOf := by rfl
  present (o : ObserverId) : (t.store.observers.get? o).isSome = (s.store.observers.get? o).isSome := by
    exact fun _ => rfl
  released : Released s → Released t := by exact id
  labels (i : StreamId) : i.number < s.store.fresh → t.store.labelOf i = s.store.labelOf i := by exact fun _ _ => rfl
  entries (y : SystemId) (i : StreamId) (o : ObserverId) :
    t.systems.entryIn y i = some o → s.systems.entryIn y i = some o := by exact fun _ _ _ => id
  holding (o : ObserverId) : Holding t o ↔ Holding s o := by exact fun _ => holding_congr rfl rfl rfl rfl
  bindings (b : BindingId) : (t.bindings.get? b).isSome → (s.bindings.get? b).isSome ∨ b.number < t.store.fresh := by
    exact fun _ => .inl
  records (i : RecordId) : (t.records.get? i).isSome → (s.records.get? i).isSome ∨ i.number < t.store.fresh := by
    exact fun _ => .inl

theorem Undisturbed.refl (s : Session) : Undisturbed s s where

theorem Undisturbed.turnover (h : Undisturbed s t) : Turnover [] [] s t :=
  .same h.fresh h.noted (fun k => by rw [coldOf, coldOf, h.sinks]) (h.labels _) (h.entries _ _ _)

theorem Undisturbed.tends (h : Undisturbed s t) : Tends [] os os s t := fun hs =>
  ⟨⟨_, h.turnover⟩, hs.turnover h.turnover (fun o ho => h.present o ▸ hs.present ((h.holding o).1 ho))
    (fun o ho => (hs.held (h.present o ▸ ho)).imp_left (h.holding o).2) (h.released hs.released)
    (fun o ho => .inl (h.present o ▸ ho)) h.bindings h.records⟩

/-- Objects, streams and collections are as they are. -/
theorem undisturbed_store {st : Store} (hobservers : st.observers = s.store.observers)
    (hfresh : s.store.fresh ≤ st.fresh := by exact Nat.le_refl _)
    (hlabels : ∀ i : StreamId, i.number < s.store.fresh →
      (st.streams.get? i).bind Stream.label? = (s.store.streams.get? i).bind Stream.label? := by exact fun _ _ => rfl) :
    Undisturbed s { s with store := st } where
  fresh := hfresh
  sinks := by
    funext k
    cases k with
    | observer o => simp only [subscriptionOf, hobservers]
    | handler => rfl
  present o := by rw [hobservers]
  released h o x hx := h (hobservers ▸ hx)
  labels := hlabels
  bindings _ := .inl
  records _ := .inl

theorem undisturbed_note {e : LogEntry} (he : e.released? = none) : Undisturbed s (s.note e) where
  noted := by simp [Session.released, note, he]

theorem undisturbed_systems {t : Table SystemId System}
    (h : ∀ y i o, t.entryIn y i = some o → s.systems.entryIn y i = some o) : Undisturbed s { s with systems := t } where
  entries := h

theorem undisturbed_setObserver {x z : Observer} (hx : s.store.observers.get? o = some x)
    (hd : z.isDestroyed = x.isDestroyed) (hc : z.subscription = x.subscription) :
    Undisturbed s { s with store := s.store.setObserver o z } where
  sinks := subscriptionOf_setObserver s hx hd hc
  present p := by
    simp only [Store.setObserver, Table.get?_insert]
    split
    next hop => rw [← hop, hx, Option.isSome_some, Option.isSome_some]
    · rfl
  released h := h.setObserver fun hz => hc ▸ h hx (hd ▸ hz)

/-- Listeners come and go. -/
theorem undisturbed_modifyListeners (s : Session) (o : ObserverId) (f : Listeners → Listeners) :
    Undisturbed s { s with store := { s.store with observers := s.store.observers.modify o fun x =>
      { x with listeners := f x.listeners } } } := by
  unfold Table.modify
  split
  next x hx => exact undisturbed_setObserver hx rfl rfl
  · exact .refl s

theorem undisturbed_unlisten (s : Session) (z : Source) (token : Nat) :
    Undisturbed s { s with store := s.store.unlisten token z } := by
  cases z with
  | property | collection => exact undisturbed_store rfl (Nat.le_refl _) fun _ _ => rfl
  | observer o => exact undisturbed_modifyListeners s o _

theorem undisturbed_sweep (s : Session) (alive : Listener → Bool) (z : Source) :
    Undisturbed s { s with store := s.store.sweep alive z } := by
  cases z with
  | property | collection => exact undisturbed_store rfl (Nat.le_refl _) fun _ _ => rfl
  | observer o => exact undisturbed_modifyListeners s o _

theorem undisturbed_listen (s : Session) (l : Listener) (z : Source) :
    Undisturbed s { s with store := (s.store.listen l z).1 } := by
  cases z with
  | property | collection => exact undisturbed_store rfl (Nat.le_refl _) fun _ _ => rfl
  | observer o =>
    simp only [Store.listen]
    split
    next x hx => exact undisturbed_setObserver hx rfl rfl
    · exact .refl s

/-- The records of bindings cover what they covered. -/
theorem undisturbed_modifyBinding (s : Session) (b : BindingId) {f : Binding → Binding}
    (hf : ∀ x z, s.bindings.get? b = some x → (f x).observations.covers z = x.observations.covers z) :
    Undisturbed s (s.modifyBinding b f) where
  holding o := by
    constructor
    · rintro (hn | ht | ⟨c, z, hc, hr⟩ | hi)
      · exact .name hn
      · exact .task ht
      · rw [get?_modifyBinding] at hc
        split at hc
        next hbc =>
          subst hbc
          obtain ⟨x, hx, rfl⟩ := Option.map_eq_some_iff.1 hc
          exact .binding ⟨b, x, hx, hf x _ hx ▸ hr⟩
        · exact .binding ⟨c, z, hc, hr⟩
      · exact .record hi
    · rintro (hn | ht | ⟨c, x, hc, hr⟩ | hi)
      · exact .name hn
      · exact .task ht
      · by_cases hbc : b = c
        · subst hbc
          exact .binding ⟨b, f x, by rw [get?_modifyBinding, if_pos rfl, hc, Option.map_some], hf x _ hc ▸ hr⟩
        · exact .binding ⟨c, x, by rw [get?_modifyBinding, if_neg hbc, hc], hr⟩
      · exact .record hi
  bindings c hc := by
    rw [get?_modifyBinding] at hc
    split at hc
    next hbc => exact .inl (by simpa [hbc] using hc)
    · exact .inl hc

theorem undisturbed_setHandler {k : SinkId} {x z : Handler} (hx : s.handlers.get? k = some x)
    (hc : z.subscription = x.subscription) : Undisturbed s { s with handlers := s.handlers.insert k z } where
  sinks := by
    funext k'
    rw [subscriptionOf_setHandler]
    split
    next hk =>
      subst hk
      simp [subscriptionOf, hx, hc]
    · rfl

end Session

end DataBinding
