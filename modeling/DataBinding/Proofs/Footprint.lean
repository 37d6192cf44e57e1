import Mathlib.Data.Finset.Card
import DataBinding.Proofs.Bystanders
import DataBinding.Proofs.Inquiry
import DataBinding.Proofs.OneWrite
import DataBinding.Proofs.ReleasedOnce

/-!
# The footprint of an evaluation

Evaluating makes objects and opens observers; everything that was there it leaves as it was, but for the sinks of the
streams that it opens observers of. Which these are can be read off the reads that are reported: the streams among them
of which the registry had no live observer (`Registry.unobserved`). Each of them is subscribed to once, however often it
is read, and nothing else is. The invariant of the run is `Visits`, which counts what was opened and keeps book of which
stream is read through which observer; one question at a time preserves it (`Visits.answer`), so a whole inquiry does
(`Visits.run`).
-/

namespace DataBinding

open Store (Tidy Spares)

namespace Registry

variable {s : Store} {r : Registry} {reads : List Read} {i : StreamId}

/-- The streams that were read and of which there was no live observer. -/
def unobserved (s : Store) (r : Registry) (reads : List Read) : Finset StreamId :=
  (reads.filterMap fun
    | .stream i _ => if r.get? s i = none then some i else none
    | .property .. => none).toFinset

theorem mem_unobserved : i ∈ r.unobserved s reads ↔ r.get? s i = none ∧ ∃ o, .stream i o ∈ reads := by
  simp only [unobserved, List.mem_toFinset, List.mem_filterMap]
  constructor
  · rintro ⟨x, hx, hi⟩
    cases x with
    | property p n => cases hi
    | stream j o =>
      dsimp only at hi
      split at hi
      next hj =>
        obtain rfl := Option.some.inj hi
        exact ⟨hj, o, hx⟩
      · cases hi
  · rintro ⟨hi, o, ho⟩
    exact ⟨_, ho, if_pos hi⟩

end Registry

namespace Store

variable {s t : Store} {i : StreamId} {o : ObserverId}

/-- From `s` to `t`, a new observer has subscribed to the stream, and nobody else has. What it was told at once is all
that it was told. -/
structure Subscribes (s t : Store) (i : StreamId) (o : ObserverId) : Prop where
  fresh : s.fresh ≤ o.number
  stream : t.streams.get? i = (s.streams.get? i).map fun x => (x.subscribe i (.observer o)).1
  observer : t.observers.get? o =
    some { ({} : Observer).receiveAll (s.greeting i) with subscription := s.subscription i (.observer o) }

/-- What a new sink is told and what it has to release is a matter of the stream. -/
theorem greeting_subscription_congr (h : t.streams.get? i = s.streams.get? i) (k : Sink) :
    t.greeting i = s.greeting i ∧ t.subscription i k = s.subscription i k := by
  unfold greeting subscription subscribe
  rw [h]
  cases s.streams.get? i <;> exact ⟨rfl, rfl⟩

end Store

/-- What there is after an evaluation has gone on for a while: `s` and `r` are what it began with, `t` and `q` what there
is now, and `reads` is what it has read. -/
structure Visits (alive : StreamId → Bool) (s : Store) (r : Registry) (reads : List Read) (t : Store) (q : Registry) :
    Prop where
  tidy : t.Tidy
  entries {i : StreamId} {o : ObserverId} : q.entries.get? i = some o → o.number < t.fresh
  spares : s.Spares t
  living {i : StreamId} {o : ObserverId} : .stream i o ∈ reads → alive i = true
  /-- Each stream is read through the live observer that the registry has of it. -/
  served {i : StreamId} {o : ObserverId} : .stream i o ∈ reads → q.get? t i = some o
  kept {i : StreamId} {o : ObserverId} : alive i = true → r.get? s i = some o → q.get? t i = some o
  absent {i : StreamId} : i ∉ r.unobserved s reads → r.get? s i = none → q.get? t i = none
  opened : q.opened = r.opened + (r.unobserved s reads).card
  untouched {i : StreamId} : i ∉ r.unobserved s reads → t.streams.get? i = s.streams.get? i
  /-- A stream without a live observer was subscribed to once, by a new observer. -/
  subscribed {i : StreamId} {o : ObserverId} : .stream i o ∈ reads → r.get? s i = none → s.Subscribes t i o
  apart {i j : StreamId} {o : ObserverId} : .stream i o ∈ reads → .stream j o ∈ reads → r.get? s i = none →
    r.get? s j = none → i = j
  only {o : ObserverId} : (t.observers.get? o).isSome →
    (s.observers.get? o).isSome ∨ ∃ i, .stream i o ∈ reads ∧ r.get? s i = none

namespace Visits

variable {alive : StreamId → Bool} {s t : Store} {r q : Registry} {reads reads' : List Read} {i : StreamId}
  {o : ObserverId}

theorem start (hs : s.Tidy) (he : ∀ {i o}, r.entries.get? i = some o → o.number < s.fresh) :
    Visits alive s r [] s r where
  tidy := hs
  entries := he
  spares := .refl
  living hr := by cases hr
  served hr := by cases hr
  kept _ h := h
  absent _ h := h
  opened := rfl
  untouched _ := rfl
  subscribed hr := by cases hr
  apart hr := by cases hr
  only := .inl

/-- Only the reads of streams count. -/
theorem congr (h : Visits alive s r reads t q) (hsame : ∀ i o, .stream i o ∈ reads' ↔ .stream i o ∈ reads) :
    Visits alive s r reads' t q := by
  have hunobserved : r.unobserved s reads' = r.unobserved s reads := by
    ext i
    simp only [Registry.mem_unobserved, hsame]
  constructor
  case tidy => exact h.tidy
  case entries => exact h.entries
  case spares => exact h.spares
  case kept => exact h.kept
  all_goals simp only [hsame, hunobserved]
  case living => exact h.living
  case served => exact h.served
  case absent => exact h.absent
  case opened => exact h.opened
  case untouched => exact h.untouched
  case subscribed => exact h.subscribed
  case apart => exact h.apart
  case only => exact h.only

theorem newObject (h : Visits alive s r reads t q) (ps : Table String Value) :
    Visits alive s r reads (t.newObject ps).1 q :=
  { h with
    tidy := (h.tidy.newObject ps).1
    entries := fun he => Nat.lt_succ_of_lt (h.entries he)
    spares := h.spares.trans (h.tidy.newObject ps).2
    subscribed := fun hp hj =>
      have hbefore := h.subscribed hp hj
      ⟨hbefore.fresh, hbefore.stream, hbefore.observer⟩ }

/-- A stream of which the registry has a live observer either had it from the start or has been read before. -/
theorem mem_reads_of_get? (h : Visits alive s r reads t q) (ho : q.get? t i = some o) (hnone : r.get? s i = none) :
    .stream i o ∈ reads := by
  have hmem : i ∈ r.unobserved s reads := by
    by_contra hnot
    rw [h.absent hnot hnone] at ho
    cases ho
  obtain ⟨-, p, hp⟩ := Registry.mem_unobserved.1 hmem
  obtain rfl := Option.some.inj (ho.symm.trans (h.served hp))
  exact hp

/-- The stream is read through the live observer that the registry has of it. -/
theorem again (h : Visits alive s r reads t q) (hi : alive i = true) (ho : q.get? t i = some o) :
    Visits alive s r (reads ++ [.stream i o]) t q := by
  have hbefore : r.get? s i = none → .stream i o ∈ reads := h.mem_reads_of_get? ho
  have hmem {j : StreamId} {p : ObserverId} : .stream j p ∈ reads ++ [.stream i o] ↔
      .stream j p ∈ reads ∨ j = i ∧ p = o := by simp
  have hnew {j : StreamId} {p : ObserverId} (hp : .stream j p ∈ reads ++ [.stream i o]) (hj : r.get? s j = none) :
      .stream j p ∈ reads := by
    rcases hmem.1 hp with hp | ⟨rfl, rfl⟩
    · exact hp
    · exact hbefore hj
  have hsame : r.unobserved s (reads ++ [.stream i o]) = r.unobserved s reads := by
    ext j
    simp only [Registry.mem_unobserved]
    exact and_congr_right fun hj => exists_congr fun p => ⟨fun hp => hnew hp hj, fun hp => hmem.2 (.inl hp)⟩
  constructor
  case tidy => exact h.tidy
  case entries => exact h.entries
  case spares => exact h.spares
  case living =>
    intro j p hp
    rcases hmem.1 hp with hp | ⟨rfl, -⟩
    · exact h.living hp
    · exact hi
  case served =>
    intro j p hp
    rcases hmem.1 hp with hp | ⟨rfl, rfl⟩
    · exact h.served hp
    · exact ho
  case kept => exact h.kept
  case absent => exact hsame ▸ h.absent
  case opened => exact hsame ▸ h.opened
  case untouched => exact hsame ▸ h.untouched
  case subscribed => exact fun hp hj => h.subscribed (hnew hp hj) hj
  case apart => exact fun hp hp' hj hj' => h.apart (hnew hp hj) (hnew hp' hj') hj hj'
  case only =>
    intro p hp
    rcases h.only hp with hp | ⟨j, hj, hjnone⟩
    · exact .inl hp
    · exact .inr ⟨j, hmem.2 (.inl hj), hjnone⟩

/-- The stream is read, and the registry has no live observer of it. Then it has not been read before, and one is
opened. -/
theorem afresh (h : Visits alive s r reads t q) (hi : alive i = true) (hnone : q.get? t i = none) :
    Visits alive s r (reads ++ [.stream i ⟨t.fresh⟩]) (q.observerFor alive t i).1 (q.observerFor alive t i).2.1 := by
  have hhad : r.get? s i = none := by
    refine Option.eq_none_iff_forall_ne_some.2 fun o ho => ?_
    cases hnone.symm.trans (h.kept hi ho)
  have hunread {p : ObserverId} : .stream i p ∉ reads := fun hp => by cases hnone.symm.trans (h.served hp)
  have hnot : i ∉ r.unobserved s reads := by
    intro hmem
    obtain ⟨-, p, hp⟩ := Registry.mem_unobserved.1 hmem
    exact hunread hp
  have hstream : t.streams.get? i = s.streams.get? i := h.untouched hnot
  have hmem {j : StreamId} {p : ObserverId} : .stream j p ∈ reads ++ [.stream i ⟨t.fresh⟩] ↔
      .stream j p ∈ reads ∨ j = i ∧ p = ⟨t.fresh⟩ := by simp
  have hinsert : r.unobserved s (reads ++ [.stream i ⟨t.fresh⟩]) = insert i (r.unobserved s reads) := by
    ext j
    simp only [Registry.mem_unobserved, Finset.mem_insert, hmem]
    constructor
    · rintro ⟨hj, p, hp | ⟨rfl, -⟩⟩
      · exact .inr ⟨hj, p, hp⟩
      · exact .inl rfl
    · rintro (rfl | ⟨hj, p, hp⟩)
      · exact ⟨hhad, _, .inr ⟨rfl, rfl⟩⟩
      · exact ⟨hj, p, .inl hp⟩
  have hfor : q.observerFor alive t i = _ := Registry.observerFor_of_none hnone
  have hstore : (q.observerFor alive t i).1 = (t.openObserver i).1 := by rw [hfor]
  have hhanded : (q.observerFor alive t i).2.2 = ⟨t.fresh⟩ := by rw [hfor]
  have hfresh := Store.fresh_openObserver t i
  obtain ⟨htidy, hspares⟩ := h.tidy.openObserver i
  -- the new observer is none of those that have been read through
  have hyounger {j : StreamId} {p : ObserverId} (hp : .stream j p ∈ reads) : p ≠ ⟨t.fresh⟩ := by
    rintro rfl
    exact Nat.lt_irrefl _ (h.entries (Registry.get?_eq_some.1 (h.served hp)).1)
  constructor
  case tidy => exact hstore ▸ htidy
  case entries =>
    intro j p hp
    rcases Registry.entries_observerFor hp with hp | hp
    · exact hp
    · rw [hstore, hfresh]
      exact Nat.lt_succ_of_lt (h.entries hp)
  case spares => exact hstore ▸ h.spares.trans hspares
  case living =>
    intro j p hp
    rcases hmem.1 hp with hp | ⟨rfl, -⟩
    · exact h.living hp
    · exact hi
  case served =>
    intro j p hp
    rcases hmem.1 hp with hp | ⟨rfl, rfl⟩
    · exact Registry.get?_observerFor_of_get? (h.served hp) (h.living hp)
    · exact hhanded ▸ Registry.get?_observerFor alive t q j
  case kept => exact fun hj hp => Registry.get?_observerFor_of_get? (h.kept hj hp) hj
  case absent =>
    intro j hj hjnone
    rw [hinsert, Finset.mem_insert, not_or] at hj
    exact Registry.get?_observerFor_of_none h.entries (Ne.symm hj.1) (h.absent hj.2 hjnone)
  case opened =>
    have hopened : (q.observerFor alive t i).2.1.opened = q.opened + 1 := by
      rw [hfor]
      dsimp only [Registry.swept]
      split <;> rfl
    rw [hopened, hinsert, Finset.card_insert_of_notMem hnot, h.opened, Nat.add_assoc]
  case untouched =>
    intro j hj
    rw [hinsert, Finset.mem_insert, not_or] at hj
    rw [hstore, Store.streams_openObserver, if_neg (Ne.symm hj.1), h.untouched hj.2]
  case subscribed =>
    intro j p hp hjnone
    rcases hmem.1 hp with hp | ⟨rfl, rfl⟩
    · have hij : i ≠ j := by
        rintro rfl
        exact hunread hp
      have hbefore := h.subscribed hp hjnone
      refine ⟨hbefore.fresh, ?_, ?_⟩
      · rw [hstore, Store.streams_openObserver, if_neg hij, hbefore.stream]
      · rw [hstore, Store.observers_openObserver, if_neg (hyounger hp).symm, hbefore.observer]
    · obtain ⟨hgreeting, hsubscription⟩ := Store.greeting_subscription_congr hstream (.observer ⟨t.fresh⟩)
      refine ⟨h.spares.fresh, ?_, ?_⟩
      · rw [hstore, Store.streams_openObserver, if_pos rfl, hstream]
      · rw [hstore, Store.observers_openObserver, if_pos rfl, Store.opened, hgreeting, hsubscription]
  case apart =>
    intro j k p hp hp' hj hk
    rcases hmem.1 hp with hp | ⟨rfl, rfl⟩
    · rcases hmem.1 hp' with hp' | ⟨-, hnew⟩
      · exact h.apart hp hp' hj hk
      · exact absurd hnew (hyounger hp)
    · rcases hmem.1 hp' with hp' | ⟨rfl, -⟩
      · exact absurd rfl (hyounger hp')
      · rfl
  case only =>
    intro p hp
    rw [hstore, Store.observers_openObserver] at hp
    split at hp
    next heq => exact .inr ⟨i, hmem.2 (.inr ⟨rfl, heq.symm⟩), hhad⟩
    · rcases h.only hp with hp | ⟨j, hj, hjnone⟩
      · exact .inl hp
      · exact .inr ⟨j, hmem.2 (.inl hj), hjnone⟩

/-! ### Questions -/

variable {ctx : EvalContext} {watched : Bool}

/-- Whatever is asked, the answer opens an observer at most. -/
theorem answer (h : Visits ctx.alive s r reads t q) (p : List Nat) (x : Question)
    (hliving : ∀ i o, (⟨p, x, (x.answer ctx watched t q).1⟩ : Exchange).read? = some (.stream i o) →
      ctx.alive i = true) :
    Visits ctx.alive s r (reads ++ (⟨p, x, (x.answer ctx watched t q).1⟩ : Exchange).read?.toList)
      (x.answer ctx watched t q).2.1 (x.answer ctx watched t q).2.2 := by
  cases x with
  | stream i =>
    cases watched with
    | false => simpa [Question.answer, Exchange.read?] using h
    | true =>
      have hi : ctx.alive i = true := hliving i (q.observerFor ctx.alive t i).2.2 rfl
      change Visits ctx.alive s r (reads ++ [.stream i (q.observerFor ctx.alive t i).2.2])
        (q.observerFor ctx.alive t i).1 (q.observerFor ctx.alive t i).2.1
      cases ho : q.get? t i with
      | some o =>
        rw [Registry.observerFor_of_get? ho]
        exact h.again hi ho
      | none =>
        have hnew : (q.observerFor ctx.alive t i).2.2 = ⟨t.fresh⟩ := by rw [Registry.observerFor_of_none ho]
        rw [hnew]
        exact h.afresh hi ho
  | property o n => exact h.congr (by simp [Exchange.read?])
  | object entries => simpa [Question.answer, Exchange.read?] using h.newObject (Table.ofList entries)
  | place | presence | converter => simpa [Question.answer, Exchange.read?] using h

/-- However many questions are asked, and whether there is a result in the end or not. -/
theorem run {α : Type} (h : Visits ctx.alive s r reads t q) (watched : Bool) (m : Inquiry α)
    (hliving : ∀ i o, .stream i o ∈ (m.run ctx watched t q).asked.filterMap Exchange.read? → ctx.alive i = true) :
    Visits ctx.alive s r (reads ++ (m.run ctx watched t q).asked.filterMap Exchange.read?)
      (m.run ctx watched t q).store (m.run ctx watched t q).registry := by
  induction m generalizing t q reads with
  | done a => simpa [Inquiry.run] using h
  | fail x => simpa [Inquiry.run] using h
  | ask p x next ih =>
    simp only [Inquiry.run, List.filterMap_eq_flatMap_toList, List.flatMap_cons] at hliving ih ⊢
    rw [← List.append_assoc]
    refine ih _ (h.answer p x fun i o hread => ?_) fun i o hread => ?_
    · exact hliving i o (List.mem_append_left _ (Option.mem_toList.2 hread))
    · exact hliving i o (List.mem_append_right _ hread)

end Visits

namespace Expr

variable {ctx : EvalContext} {w : Watch} {e : Expr}

/-- Without a watch there is nothing to report. -/
theorem reads_of_nothing (ctx : EvalContext) (e : Expr) (t : EvalState) :
    ((e.evaluate ctx .nothing).run t).2.reads = t.reads := by
  suffices h : ∀ {α : Type} (m : Inquiry α) (s : Store) (r : Registry),
      (m.run ctx false s r).asked.filterMap (e.reports ctx.flags.leafOnly .nothing) = [] by
    rw [evaluate_eq_run]
    exact (congrArg _ (h ..)).trans (List.append_nil _)
  intro α m
  induction m with
  | done a => exact fun _ _ => rfl
  | fail x => exact fun _ _ => rfl
  | ask p q next ih =>
    intro s r
    simp only [Inquiry.run]
    rw [List.filterMap_cons_none, ih]
    cases q <;> simp [Question.answer, reports, Exchange.read?, Option.filter, Read.isProperty]

/-- As long as whatever is read is alive, an evaluation is a visit. -/
theorem visits_evaluate {s : Store} {r : Registry} (hs : s.Tidy)
    (he : ∀ {i o}, r.entries.get? i = some o → o.number < s.fresh)
    (hliving : ∀ i o, .stream i o ∈ ((e.evaluate ctx w).run { store := s, registry := r }).2.reads →
      ctx.alive i = true) :
    let u := ((e.evaluate ctx w).run { store := s, registry := r }).2
    Visits ctx.alive s r u.reads u.store u.registry := by
  rw [evaluate_eq_run] at hliving ⊢
  simp only [List.nil_append] at hliving ⊢
  have hstart : Visits ctx.alive s r [] s r := .start hs he
  refine (hstart.run w.coversStreams (e.inquiry ctx.flags.strict ctx.scope) fun i o ho => ?_).congr
    fun i o => mem_filterMap_reports
  exact hliving i o (mem_filterMap_reports.2 ho)

end Expr

namespace Session

variable {os : List ObserverId} {s : Session} {y : SystemId} {z : System}

/-- What an evaluation with a system does to a session, where `reads` is what it reports. -/
structure Footprint (s : Session) (y : SystemId) (z : System) (reads : List Read) (t : Session) : Prop where
  /-- Only in the store and in the registry of the system can there be anything new. The registry has opened one observer
  for each stream that was read and of which it had no live one. -/
  opened : ∃ q : Registry, t = { s with store := t.store, systems := s.systems.insert y { z with registry := q } } ∧
    q.opened = z.registry.opened + (z.registry.unobserved s.store reads).card
  objects {p : ObjectId} : s.store.Knows (.object p) → t.store.objects.get? p = s.store.objects.get? p
  observers {o : ObserverId} : (s.store.observers.get? o).isSome → t.store.observers.get? o = s.store.observers.get? o
  collections : t.store.collections = s.store.collections
  /-- The latest value and the end of a stream stay what they are. -/
  streams (i : StreamId) : t.coreOf i = s.coreOf i
  /-- Live observers are read through. -/
  handed {i : StreamId} {o p : ObserverId} : .stream i o ∈ reads → z.registry.get? s.store i = some p → o = p
  /-- A stream that had no live observer is subscribed to once, however often it is read. -/
  subscribed {i : StreamId} : i ∈ z.registry.unobserved s.store reads →
    ∃ o, (∀ p, .stream i p ∈ reads ↔ p = o) ∧ s.store.Subscribes t.store i o
  /-- Nobody subscribes to the other streams. -/
  untouched {i : StreamId} : i ∉ z.registry.unobserved s.store reads →
    t.store.streams.get? i = s.store.streams.get? i
  /-- Each new observer is that of one stream. -/
  only {o : ObserverId} : (t.store.observers.get? o).isSome → (s.store.observers.get? o).isSome ∨
    ∃! i, i ∈ z.registry.unobserved s.store reads ∧ .stream i o ∈ reads

theorem footprint_withEval {alive : StreamId → Bool} {u : EvalState}
    (h : Visits alive s.store z.registry u.reads u.store u.registry) : Footprint s y z u.reads (s.withEval y z u) where
  opened := ⟨u.registry, rfl, h.opened⟩
  objects := h.spares.objects
  observers := h.spares.observers
  collections := h.spares.collections
  streams i := by
    by_cases hi : i ∈ z.registry.unobserved s.store u.reads
    · obtain ⟨hnone, o, ho⟩ := Registry.mem_unobserved.1 hi
      change (u.store.streams.get? i).map Stream.core = _
      rw [(h.subscribed ho hnone).stream, Option.map_map]
      exact congrFun (congrArg _ (funext fun x => Stream.core_subscribe i (.observer o) x)) _
    · exact congrArg _ (h.untouched hi)
  handed hr hp := Option.some.inj ((h.served hr).symm.trans (h.kept (h.living hr) hp))
  subscribed hi := by
    obtain ⟨hnone, o, ho⟩ := Registry.mem_unobserved.1 hi
    refine ⟨o, fun p => ⟨fun hp => ?_, fun heq => heq ▸ ho⟩, h.subscribed ho hnone⟩
    exact Option.some.inj ((h.served hp).symm.trans (h.served ho))
  untouched := h.untouched
  only ho := by
    rcases h.only ho with ho | ⟨i, hi, hnone⟩
    · exact .inl ho
    · refine .inr ⟨i, ⟨Registry.mem_unobserved.2 ⟨hnone, _, hi⟩, hi⟩, ?_⟩
      rintro j ⟨hj, hread⟩
      exact h.apart hread hi (Registry.mem_unobserved.1 hj).1 hnone

/-- The identities of what a system has observers of and of these observers were taken before. -/
theorem Attended.known (h : Attended os s) (hz : s.systems.get? y = some z) : Registry.Known s.store z.registry where
  observers ho := h.observers (Option.isSome_iff_exists.2 ⟨_, ho⟩)
  entries he := (h.entered ((entryIn_of_get? hz _).trans he)).2

/-- Evaluating in a session with all that is in reach in hand, where names are looked up in scopes in hand, leaves
everything that was there as it was, whether it succeeds or fails, but for the streams that were read without a live
observer: each of them is subscribed to once. Without a watch no stream is. -/
theorem evaluate_footprint (hs : Sound (· ∈ s.held) s) (hz : s.systems.get? y = some z)
    (hknown : Registry.Known s.store z.registry) {scope : Scope} {host : Option Scope}
    (hscope : Within (· ∈ s.held) (sharedInScope scope))
    (hhost : ∀ x, host = some x → Within (· ∈ s.held) (sharedInScope x)) (flags : EvalFlags) (w : Watch) (e : Expr) :
    Footprint s y z (s.evaluate y flags scope host w e).2.1 (s.evaluate y flags scope host w e).1 ∧
      (w = .nothing →
        (s.evaluate y flags scope host w e).2.1 = [] ∧ OnlyMakes s (s.evaluate y flags scope host w e).1) := by
  have hliving : ∀ i o, .stream i o ∈ (s.evaluate y flags scope host w e).2.1 → s.isAlive i = true :=
    fun i o => isAlive_of_read (g := s.bare) hs (fun _ => isAlive_iff.2) hscope hhost
  rw [evaluate_of_get? hz] at hliving ⊢
  let ctx : EvalContext := { flags, scope, host, converters := z.converters, alive := s.isAlive }
  let start : EvalState := { store := s.store, registry := z.registry }
  let u : EvalState := ((e.evaluate ctx w).run start).2
  have htidy : s.store.Tidy := by
    refine hs.tidy fun o ho => ?_
    obtain ⟨x, hx⟩ := Option.isSome_iff_exists.1 ho
    exact hknown.observers hx
  have hvisits : Visits ctx.alive s.store z.registry u.reads u.store u.registry :=
    Expr.visits_evaluate htidy hknown.entries hliving
  refine ⟨footprint_withEval hvisits, ?_⟩
  rintro rfl
  have hctx : ctx = { ctx with alive := ctx.alive } := rfl
  exact ⟨Expr.reads_of_nothing ctx e start, onlyMakes_withEval hz ((Expr.unwatched_evaluate hctx e).1 start).1⟩

/-- A host with a model that holds one stream under two names, and another one that has been read through before. -/
private def heldTwice : List Act :=
  [.command (.makeSubject "a" (some (.int 5))), .command (.makeCold "b" [.next (.int 2)]),
    .command (.observe "main" "b" (some "seen")),
    .command (.makeObject "model" [("a$", .stream "a"), ("also$", .stream "a"), ("b$", .stream "b")]),
    .command (.makeScope "scope" "model" none none)]

private def heldTwiceScope : Scope := ⟨⟨6⟩, ⟨⟨4⟩, ⟨5⟩⟩, []⟩

/-- Three reads of streams open one observer, and none if nobody watches. -/
theorem evaluate_footprint_twice :
    let s := initial.play heldTwice
    let e := Expr.array [.streamScope "a$" 0 false, .streamScope "b$" 0 false, .streamScope "also$" 0 false]
    let run := fun w => s.evaluate ⟨0⟩ {} heldTwiceScope none w e
    ∃ z, s.systems.get? ⟨0⟩ = some z ∧
      (run .everything).2.1.filter (!·.isProperty) = [.stream ⟨1⟩ ⟨7⟩, .stream ⟨2⟩ ⟨3⟩, .stream ⟨1⟩ ⟨7⟩] ∧
      z.registry.unobserved s.store (run .everything).2.1 = {⟨1⟩} ∧
      Footprint s ⟨0⟩ z (run .everything).2.1 (run .everything).1 ∧ OnlyMakes s (run .nothing).1 := by
  intro s e run
  have hsound : Sound (· ∈ s.held) s := sound_initial.play heldTwice
  have hheld : (sharedInScope heldTwiceScope).all s.held.contains = true := by decide +kernel
  have hscope : Within (· ∈ s.held) (sharedInScope heldTwiceScope) := fun x hx =>
    List.contains_iff_mem.1 (List.all_eq_true.1 hheld x hx)
  have hunobserved : ((s.systems.get? ⟨0⟩).map fun z => z.registry.unobserved s.store (run .everything).2.1) =
      some {⟨1⟩} := by decide +kernel
  obtain ⟨z, hz, hone⟩ := Option.map_eq_some_iff.1 hunobserved
  obtain ⟨ds, hledger⟩ := exists_ledger heldTwice
  have hhost : ∀ x, (none : Option Scope) = some x → Within (· ∈ s.held) (sharedInScope x) := fun _ h => by cases h
  have hfootprint (w : Watch) : Footprint s ⟨0⟩ z (run w).2.1 (run w).1 ∧
      (w = .nothing → (run w).2.1 = [] ∧ OnlyMakes s (run w).1) :=
    evaluate_footprint hsound hz (hledger.attended.known hz) hscope hhost {} w e
  exact ⟨z, hz, by decide +kernel, hone, (hfootprint .everything).1, ((hfootprint .nothing).2 rfl).2⟩

end Session

end DataBinding
