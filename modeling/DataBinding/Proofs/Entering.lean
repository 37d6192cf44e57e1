import DataBinding.Proofs.Owing

/-!
# Entering and releasing

What a binding enters of its reads and what it releases, exactly. Entering adds one registration, after all others, with
each source that was read and that the record had no entry for, and leaves all other registrations where they are
(`enters_observe`). Releasing takes away the registrations of the entries that are given up, and no others; an observer
that is left by its last listener is destroyed (`releases_releaseAll`).
-/

namespace DataBinding

open Session (sourceOf)

/-- The entries of a record, those of sources that were read with the version of the round. -/
def Observations.stamped (o : Observations) (reads : List Read) : List Observation :=
  o.entries.map fun e => if e.source ∈ reads.map sourceOf then { e with version := o.version } else e

/-- The registrations of the entries of a source. -/
def registrations (b : BindingId) (es : List Observation) (z : Source) : List (Nat × Listener) :=
  (es.filter fun e => e.source = z).map fun e => (e.token, .binding b)

theorem registrations_cons (b : BindingId) (e : Observation) (es : List Observation) (z : Source) :
    registrations b (e :: es) z = (if e.source = z then [(e.token, .binding b)] else []) ++ registrations b es z := by
  by_cases h : e.source = z <;> simp [registrations, h]

/-- The source is not among those of the entries. -/
theorem registrations_eq_nil {b : BindingId} {es : List Observation} {z : Source} (h : ∀ e ∈ es, e.source ≠ z) :
    registrations b es z = [] := by
  rw [registrations, List.map_eq_nil_iff, List.filter_eq_nil_iff]
  exact fun e he hz => h e he (by simpa using hz)

/-- A binding whose record was `o` has entered the reads. The record is `o'` then, with the entries `added` for the
sources that `o` had no entry for. -/
structure Enters (b : BindingId) (reads : List Read) (s t : Store) (o o' : Observations) (added : List Observation) :
    Prop extends s.Resembles t where
  version : o'.version = o.version
  entries : o'.entries = o.stamped reads ++ added
  covers {d : Read} : d ∈ reads → o'.covers (sourceOf d) = true
  read {e : Observation} : e ∈ added → e.version = o.version ∧ ∃ d ∈ reads, sourceOf d = e.source
  listed (z : Source) : (t.listeners z).entries = (s.listeners z).entries ++ registrations b added z

namespace Enters

variable {b : BindingId} {d : Read} {reads : List Read} {s t : Store} {o o' : Observations} {added : List Observation}

theorem nil : Enters b [] s s o o [] where
  toResembles := .refl
  version := rfl
  entries := by simp [Observations.stamped]
  covers h := by cases h
  read h := by cases h
  listed z := by simp [registrations]

/-- A source of an entry of the record is read. -/
theorem restamp (hd : o.covers (sourceOf d) = true) (h : Enters b reads s t (o.restamp (sourceOf d)) o' added) :
    Enters b (d :: reads) s t o o' added where
  toResembles := h.toResembles
  version := h.version
  entries := by
    rw [h.entries]
    congr 1
    simp only [Observations.stamped, Observations.restamp, List.map_map, List.map_cons, List.mem_cons]
    refine List.map_congr_left fun e _ => ?_
    by_cases he : e.source = sourceOf d <;> simp [he]
  covers {c} hc := by
    rcases List.mem_cons.1 hc with rfl | hc
    · -- the entry that there was is among those that are still there
      obtain ⟨e, he, hsource⟩ := Observations.covers_iff.1 hd
      have hmem : { e with version := o.version } ∈ (o.restamp (sourceOf c)).entries :=
        List.mem_map.2 ⟨e, he, by simp [hsource]⟩
      refine Observations.covers_iff.2 ⟨{ e with version := o.version }, ?_, hsource⟩
      rw [h.entries]
      refine List.mem_append_left _ (List.mem_map.2 ⟨_, hmem, ?_⟩)
      split <;> rfl
    · exact h.covers hc
  read he := by
    obtain ⟨hversion, c, hc, hsource⟩ := h.read he
    exact ⟨hversion, c, List.mem_cons_of_mem _ hc, hsource⟩
  listed := h.listed

/-- Another source is read. -/
theorem add {u : Store} {token : Nat} (hd : ¬o.covers (sourceOf d) = true)
    (hlist : s.Relists (· ++ [(token, .binding b)]) (sourceOf d) u)
    (h : Enters b reads u t (o.add (sourceOf d) token hd) o' added) :
    Enters b (d :: reads) s t o o' ({ source := sourceOf d, token, version := o.version } :: added) where
  toResembles := hlist.toResembles.trans h.toResembles
  version := h.version
  entries := by
    have hne : ∀ e ∈ o.entries, e.source ≠ sourceOf d :=
      fun e he hsource => hd (Observations.covers_iff.2 ⟨e, he, hsource⟩)
    rw [h.entries]
    simp only [Observations.stamped, Observations.add, List.map_append, List.append_assoc, List.map_cons, List.map_nil,
      ite_self, List.singleton_append, List.mem_cons]
    congr 1
    refine List.map_congr_left fun e he => ?_
    simp [hne e he]
  covers {c} hc := by
    rcases List.mem_cons.1 hc with rfl | hc
    · refine Observations.covers_iff.2 ⟨{ source := sourceOf c, token, version := o.version }, ?_, rfl⟩
      rw [h.entries]
      refine List.mem_append_left _ (List.mem_map.2 ⟨_, List.mem_append_right _ (List.mem_singleton_self _), ?_⟩)
      exact ite_self _
    · exact h.covers hc
  read {e} he := by
    rcases List.mem_cons.1 he with rfl | he
    · exact ⟨rfl, d, List.mem_cons_self, rfl⟩
    · obtain ⟨hversion, c, hc, hsource⟩ := h.read he
      exact ⟨hversion, c, List.mem_cons_of_mem _ hc, hsource⟩
  listed z := by
    rw [h.listed, hlist.entries, registrations_cons]
    split
    · simp
    · simp

/-- Whether a source has an entry afterwards: it had one before, or it was read. -/
theorem covers_iff (h : Enters b reads s t o o' added) {z : Source} :
    o'.covers z = true ↔ o.covers z = true ∨ ∃ d ∈ reads, sourceOf d = z := by
  constructor
  · intro hz
    obtain ⟨e, he, hsource⟩ := Observations.covers_iff.1 hz
    rw [h.entries] at he
    rcases List.mem_append.1 he with he | he
    · obtain ⟨e', he', rfl⟩ := List.mem_map.1 he
      refine .inl (Observations.covers_iff.2 ⟨e', he', ?_⟩)
      split at hsource <;> exact hsource
    · obtain ⟨-, d, hd, hread⟩ := h.read he
      exact .inr ⟨d, hd, hread.trans hsource⟩
  · rintro (hz | ⟨d, hd, rfl⟩)
    · obtain ⟨e, he, hsource⟩ := Observations.covers_iff.1 hz
      refine Observations.covers_iff.2
        ⟨if e.source ∈ reads.map sourceOf then { e with version := o.version } else e, ?_, ?_⟩
      · rw [h.entries]
        exact List.mem_append_left _ (List.mem_map.2 ⟨e, he, rfl⟩)
      · split <;> exact hsource
    · exact h.covers hd

/-- Into an empty record comes just what is added. -/
theorem entries_of_nil (h : Enters b reads s t o o' added) (ho : o.entries = []) : o'.entries = added := by
  rw [h.entries, Observations.stamped, ho, List.map_nil, List.nil_append]

/-- The record had no entry for the source of one that was added. -/
theorem not_covers (h : Enters b reads s t o o' added) {e : Observation} (he : e ∈ added) :
    ¬o.covers e.source = true := by
  intro hcovers
  obtain ⟨e', he', hsource⟩ := Observations.covers_iff.1 hcovers
  have hdistinct := o'.distinct
  rw [h.entries, List.pairwise_append] at hdistinct
  refine hdistinct.2.2 _ (List.mem_map.2 ⟨e', he', rfl⟩) e he ?_
  split <;> exact hsource

/-- Sources that had an entry, and those that were not read, keep their registrations as they are. -/
theorem listed_of_not (h : Enters b reads s t o o' added) {z : Source}
    (hz : o.covers z = true ∨ ∀ d ∈ reads, sourceOf d ≠ z) : (t.listeners z).entries = (s.listeners z).entries := by
  rw [h.listed, registrations_eq_nil, List.append_nil]
  rintro e he rfl
  rcases hz with hz | hz
  · exact h.not_covers he hz
  · obtain ⟨-, d, hd, hsource⟩ := h.read he
    exact hz d hd hsource

/-- A source that had no entry and was read gets the registration of its new entry, after all others. -/
theorem listed_of_added (h : Enters b reads s t o o' added) {e : Observation} (he : e ∈ added) :
    (t.listeners e.source).entries = (s.listeners e.source).entries ++ [(e.token, .binding b)] := by
  have hdistinct : added.Pairwise fun d e => d.source ≠ e.source := by
    have hall := o'.distinct
    rw [h.entries] at hall
    exact (List.pairwise_append.1 hall).2.1
  rw [h.listed]
  congr 1
  clear h
  -- no other entry has the source
  induction added with
  | nil => cases he
  | cons a added ih =>
    obtain ⟨hne, hrest⟩ := List.pairwise_cons.1 hdistinct
    rw [registrations_cons]
    rcases List.mem_cons.1 he with rfl | he
    · rw [if_pos rfl, registrations_eq_nil fun e' he' => (hne e' he').symm, List.append_nil]
    · rw [if_neg (hne e he), List.nil_append, ih he hrest]

end Enters

namespace Session

variable {s t u : Session} {b : BindingId} {x : Binding} {reads : List Read} {e : Observation} {es es' : List Observation}
  {o : ObserverId} {z : Source}

/-- A binding enters what it has read. -/
theorem enters_observe (h : s.Readable reads) (hx : s.bindings.get? b = some x) :
    ∃ o added, (s.observe b reads).bindings.get? b = some { x with observations := o } ∧
      Enters b reads s.store (s.observe b reads).store x.observations o added := by
  induction reads generalizing s x with
  | nil => exact ⟨x.observations, [], hx, .nil⟩
  | cons d reads ih =>
    have hget := get?_observeOne s b x d b
    rw [if_pos rfl] at hget
    obtain ⟨o, added, ho, henters⟩ := ih (h.observeOne b x) hget
    rw [observe_cons hx]
    by_cases hcovers : x.observations.covers (sourceOf d) = true
    · have hstore : (s.observeOne b x d).store = s.store := by rw [observeOne_of_covers hcovers]
      have hrecord : (x.observations.observe s.store (.binding b) (sourceOf d)).2 =
          x.observations.restamp (sourceOf d) := by rw [Observations.observe, dif_pos hcovers]
      rw [hrecord, hstore] at henters
      exact ⟨o, added, ho, henters.restamp hcovers⟩
    · have hstore : (s.observeOne b x d).store = (s.store.listen (.binding b) (sourceOf d)).1 := by
        rw [observeOne_of_not_covers hcovers]
      have hrecord : (x.observations.observe s.store (.binding b) (sourceOf d)).2 =
          x.observations.add (sourceOf d) (s.store.listen (.binding b) (sourceOf d)).2 hcovers := by
        rw [Observations.observe, dif_neg hcovers]
      rw [hrecord, hstore] at henters
      exact ⟨o, _, ho, henters.add hcovers (Store.relists_listen (.binding b) (h d (by simp)))⟩

/-! ### Releasing -/

/-- The entries have been released, and nothing else has happened to registrations. -/
structure Releases (es : List Observation) (s t : Session) : Prop where
  /-- Only the registrations of the entries are taken away, unless the source is an observer that is gone with them. -/
  entries (z : Source) :
    (t.store.listeners z).entries = (s.store.listeners z).entries.filter (fun l => ∀ e ∈ es, e.source = z → e.token ≠ l.1) ∨
      ∃ o, z = .observer o ∧ (∃ e ∈ es, e.source = z) ∧ t.store.observers.get? o = none
  gone {o : ObserverId} : s.store.observers.get? o = none → t.store.observers.get? o = none
  live {o : ObserverId} : t.store.isLive o = true → s.store.isLive o = true
  /-- An observer that its last listener has left is destroyed. -/
  left {o : ObserverId} : (s.store.listeners (.observer o)).entries ≠ [] → (t.store.listeners (.observer o)).entries = [] →
    t.store.isLive o = false
  /-- One that still has a listener is not. -/
  stays {o : ObserverId} : (t.store.listeners (.observer o)).entries ≠ [] → s.store.isLive o = true →
    t.store.isLive o = true

theorem Releases.nil : Releases [] s s where
  entries z := .inl (by simp)
  gone := id
  live := id
  left h h' := absurd h' h
  stays _ h := h

/-- What has been released can be told from the stores. -/
theorem Releases.of_stores {s' t' : Session} (h : Releases es s t) (hs : s'.store = s.store := by rfl)
    (ht : t'.store = t.store := by rfl) : Releases es s' t' := by
  constructor <;> rw [hs, ht]
  case entries => exact h.entries
  case gone => exact h.gone
  case live => exact h.live
  case left => exact h.left
  case stays => exact h.stays

/-- A source without registrations gets none. -/
theorem Releases.listed_nil (h : Releases es s t) (hz : (s.store.listeners z).entries = []) :
    (t.store.listeners z).entries = [] := by
  rcases h.entries z with hentries | ⟨o, rfl, -, hnone⟩
  · rw [hentries, hz, List.filter_nil]
  · rw [Store.listeners, hnone]

theorem Releases.append (h : Releases es s t) (h' : Releases es' t u) : Releases (es ++ es') s u where
  entries z := by
    rcases h'.entries z with he' | ⟨o, rfl, ⟨e, he, hz⟩, hnone⟩
    · rcases h.entries z with he | ⟨o, rfl, ⟨e, he, hz⟩, hnone⟩
      · left
        rw [he', he, List.filter_filter]
        refine List.filter_congr fun l _ => ?_
        simp only [List.mem_append, or_imp, forall_and, Bool.decide_and, Bool.and_comm]
      · exact .inr ⟨o, rfl, ⟨e, List.mem_append_left _ he, hz⟩, h'.gone hnone⟩
    · exact .inr ⟨o, rfl, ⟨e, List.mem_append_right _ he, hz⟩, hnone⟩
  gone ho := h'.gone (h.gone ho)
  live ho := h.live (h'.live ho)
  left {o} hs hu := by
    by_cases ht : (t.store.listeners (.observer o)).entries = []
    · have hdead := h.left hs ht
      refine Bool.eq_false_iff.2 fun hlive => ?_
      rw [h'.live hlive] at hdead
      cases hdead
    · exact h'.left ht hu
  stays hu hs := h'.stays hu (h.stays (fun ht => hu (h'.listed_nil ht)) hs)

/-- A registration that was taken away is not there any more. -/
theorem Releases.not_mem (h : Releases es s t) (he : e ∈ es) (l : Listener) :
    (e.token, l) ∉ (t.store.listeners e.source).entries := by
  intro hl
  rcases h.entries e.source with hentries | ⟨o, ho, -, hnone⟩
  · rw [hentries] at hl
    have hall := of_decide_eq_true (List.mem_filter.1 hl).2
    exact hall e he rfl rfl
  · rw [ho, Store.listeners, hnone] at hl
    cases hl

/-- A source that has no entry among those released keeps its registrations as they are. -/
theorem Releases.listed_of_not (h : Releases es s t) (hz : ∀ e ∈ es, e.source ≠ z) :
    (t.store.listeners z).entries = (s.store.listeners z).entries := by
  rcases h.entries z with hentries | ⟨o, rfl, ⟨e, he, hsource⟩, -⟩
  · rw [hentries, List.filter_eq_self]
    exact fun l _ => decide_eq_true fun e he hsource => absurd hsource (hz e he)
  · exact absurd hsource (hz e he)

theorem listeners_unlisten (s : Session) (z z' : Source) (token : Nat) :
    (s.unlisten z token).store.listeners z' = (s.store.unlisten token z).listeners z' := by
  unfold Session.unlisten
  dsimp only
  split
  · split
    · rw [listeners_destroy]
    · rfl
  · rfl

theorem live_destroy {p : ObserverId} (h : (s.destroy o).store.isLive p = true) : s.store.isLive p = true := by
  rw [isLive_destroy, Bool.and_eq_true] at h
  exact h.2

theorem gone_destroy {p : ObserverId} (h : s.store.observers.get? p = none) :
    (s.destroy o).store.observers.get? p = none := by
  unfold Session.destroy
  split
  · exact h
  next x hx =>
    split
    · exact h
    · rw [close_observers, Store.setObserver, Table.get?_insert]
      split
      next hop =>
        subst hop
        rw [h] at hx
        cases hx
      · exact h

/-- An observer is destroyed when a registration that it had is the last that is taken away. -/
theorem releases_unlisten (s : Session) (e : Observation) : Releases [e] s (s.unlisten e.source e.token) := by
  have hrelists := Store.relists_unlisten s.store e.token e.source
  have hgone : ∀ p, s.store.observers.get? p = none → (s.store.unlisten e.token e.source).observers.get? p = none := by
    intro p hp
    cases e.source with
    | observer o =>
      simp only [Store.unlisten, Table.get?_modify]
      split
      next hop => rw [hop, hp, Option.map_none]
      · exact hp
    | property | collection => exact hp
  constructor
  case entries =>
    intro z
    left
    rw [listeners_unlisten, hrelists.entries]
    split
    next hz =>
      refine List.filter_congr fun l _ => ?_
      by_cases hl : l.1 = e.token <;> simp [hz, hl, Ne.symm]
    next hz => simp [hz]
  case gone =>
    intro p hp
    unfold Session.unlisten
    dsimp only
    split
    · split
      · exact gone_destroy (hgone p hp)
      · exact hgone p hp
    · exact hgone p hp
  case live =>
    intro p hp
    have hlive : (s.store.unlisten e.token e.source).isLive p = s.store.isLive p := hrelists.live p
    rw [← hlive]
    unfold Session.unlisten at hp
    dsimp only at hp
    split at hp
    · split at hp
      · exact live_destroy hp
      · exact hp
    · exact hp
  case left =>
    intro p hs ht
    rw [listeners_unlisten] at ht
    have hentries := hrelists.entries (.observer p)
    rw [ht] at hentries
    by_cases hsource : e.source = .observer p
    · rw [if_pos hsource] at hentries
      -- all that was registered had the token, so it was there
      have hhas : (s.store.listeners (.observer p)).has e.token = true := by
        obtain ⟨l, hl⟩ := List.exists_mem_of_ne_nil _ hs
        refine List.any_eq_true.2 ⟨l, hl, ?_⟩
        have hfalse := List.filter_eq_nil_iff.1 hentries.symm l hl
        simpa using hfalse
      have hempty : ((s.store.unlisten e.token (.observer p)).listeners (.observer p)).isEmpty = true :=
        List.isEmpty_iff.2 (by rw [← hsource]; exact hsource ▸ ht)
      rw [hsource]
      simp only [Session.unlisten, hhas, hempty, Bool.and_self, if_true]
      rw [isLive_destroy]
      simp
    · rw [if_neg hsource] at hentries
      exact absurd hentries.symm hs
  case stays =>
    intro p ht hp
    rw [listeners_unlisten] at ht
    have hlive : (s.store.unlisten e.token e.source).isLive p = true := (hrelists.live p).trans hp
    unfold Session.unlisten
    dsimp only
    split
    next o hsource =>
      split
      next hempty =>
        -- the observer that is destroyed has no listeners
        rw [isLive_destroy, hlive, Bool.and_true, bne_iff_ne]
        rintro rfl
        rw [Bool.and_eq_true, hsource] at hempty
        rw [hsource] at ht
        exact ht (List.isEmpty_iff.1 hempty.2)
      · exact hlive
    · exact hlive

theorem gone_letGoObserver {p : ObserverId} (h : s.store.observers.get? p = none) :
    (s.letGoObserver o).store.observers.get? p = none := by
  unfold Session.letGoObserver
  split
  · exact h
  · split
    · exact h
    · rw [close_observers, Table.get?_erase]
      split
      · rfl
      · exact h

theorem live_letGoObserver {p : ObserverId} (h : (s.letGoObserver o).store.isLive p = true) :
    s.store.isLive p = true := by
  unfold Session.letGoObserver at h
  split at h
  · exact h
  · split at h
    · exact h
    · rw [Store.isLive, close_observers, Table.get?_erase] at h
      split at h
      next hnone =>
        split at hnone
        · cases hnone
        · rw [Store.isLive, hnone]
          exact h
      · cases h

theorem stays_letGoObserver {p : ObserverId} (hp : p ≠ o) (h : s.store.isLive p = true) :
    (s.letGoObserver o).store.isLive p = true := by
  unfold Session.letGoObserver
  split
  · exact h
  · split
    · exact h
    · rw [Store.isLive, close_observers, Table.get?_erase, if_neg hp.symm]
      exact h

/-- An observer that is let go stays as it is or goes. -/
theorem letGoObserver_cases (s : Session) (o : ObserverId) :
    s.letGoObserver o = s ∨ (s.letGoObserver o).store.observers.get? o = none ∧
      ∀ z, z ≠ .observer o → (s.letGoObserver o).store.listeners z = s.store.listeners z := by
  unfold Session.letGoObserver
  split
  · exact .inl rfl
  · split
    · exact .inl rfl
    · refine .inr ⟨by rw [close_observers, Table.get?_erase, if_pos rfl], fun z hz => ?_⟩
      cases z with
      | observer p =>
        have hop : o ≠ p := fun he => hz (he ▸ rfl)
        simp only [Store.listeners, close_observers, Table.get?_erase, if_neg hop]
      | property => simp only [Store.listeners, object_close]; rfl
      | collection =>
        simp only [Store.listeners]
        next x _ _ => cases x.subscription <;> rfl

/-- An entry is released. -/
theorem releases_release (s : Session) (e : Observation) : Releases [e] s (s.release e) := by
  have hun := releases_unlisten s e
  unfold Session.release
  dsimp only
  split
  next o hsource =>
    rcases letGoObserver_cases (s.unlisten e.source e.token) o with hsame | ⟨hnone, hother⟩
    · rw [hsame]
      exact hun
    · constructor
      case entries =>
        intro z
        by_cases hz : z = .observer o
        · exact .inr ⟨o, hz, ⟨e, List.mem_singleton_self _, hsource.trans hz.symm⟩, hnone⟩
        · rw [hother z hz]
          exact (hun.entries z).imp_right fun ⟨p, hp, he, hgone⟩ => ⟨p, hp, he, gone_letGoObserver hgone⟩
      case gone => exact fun hp => gone_letGoObserver (hun.gone hp)
      case live => exact fun hp => hun.live (live_letGoObserver hp)
      case left =>
        intro p hs ht
        by_cases hp : p = o
        · subst hp
          rw [Store.isLive, hnone]
        · have hp' : Source.observer p ≠ .observer o := fun he => hp (Source.observer.inj he)
          rw [hother _ hp'] at ht
          have hdead := hun.left hs ht
          refine Bool.eq_false_iff.2 fun hlive => ?_
          rw [live_letGoObserver hlive] at hdead
          cases hdead
      case stays =>
        intro p ht hs
        have hp : p ≠ o := by
          rintro rfl
          rw [Store.listeners, hnone] at ht
          exact ht rfl
        have hp' : Source.observer p ≠ .observer o := fun he => hp (Source.observer.inj he)
        rw [hother _ hp'] at ht
        exact stays_letGoObserver hp (hun.stays ht hs)
  · exact hun

theorem releases_releaseAll (s : Session) (es : List Observation) : Releases es s (s.releaseAll es) := by
  unfold Session.releaseAll
  induction es generalizing s with
  | nil => exact .nil
  | cons e es ih => exact (releases_release s e).append (ih (s.release e))

/-- What the latest round of a binding has not read is released. -/
theorem releases_clearStale (hx : s.bindings.get? b = some x) : Releases x.observations.stale s (s.clearStale b) := by
  have hall := releases_releaseAll (s.modifyBinding b fun x => { x with observations := x.observations.fresh })
    x.observations.stale
  simp only [Session.clearStale, hx]
  exact hall.of_stores

theorem releases_clearObservations (hx : s.bindings.get? b = some x) :
    Releases x.observations.entries s (s.clearObservations b) := by
  have hall := releases_releaseAll (s.modifyBinding b fun x => { x with observations := x.observations.cleared })
    x.observations.entries
  simp only [Session.clearObservations, hx]
  exact hall.of_stores

end Session

end DataBinding
