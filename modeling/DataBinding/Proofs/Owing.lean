import DataBinding.Proofs.Rebinding

/-!
# What bindings owe

Where bindings are the only listeners, who is registered with a source is a matter of records: a binding has one
registration with each source that its record has an entry for, and there are no others. While a binding gives up what
it no longer observes, or enters what it has read, the two sides differ by what is still to be done (`Owes`); each
release and each entry brings them closer together.

If nobody else handles observers, an observer is live just as long as somebody listens to it: it is opened for a binding
that enters it at once, and destroyed when its last listener leaves. Whether that is asked for is the parameter `P`.
-/

namespace DataBinding

/-- What decides about a binding's registrations: whether it is bound, and the entries of its record. -/
def Binding.dues (x : Binding) : Bool × List Observation := (x.isBound, x.observations.entries)

namespace Session

variable {P : Prop} {s t u : Session} {b c : BindingId} {x y : Binding} {z : Source} {e : Observation}
  {es : List Observation} {r : Read} {reads : List Read} {o : ObserverId}

/-- The record of a binding has an entry for the source, with the token. -/
def Records (s : Session) (c : BindingId) (z : Source) (n : Nat) : Prop :=
  ∃ x e, s.bindings.get? c = some x ∧ e ∈ x.observations.entries ∧ e.source = z ∧ e.token = n

/-- The registrations are those of the records and those of `es`, which are no longer in the record of `b`. If nobody
else handles observers, those are live that have a listener or have just been read through. -/
structure Owes (P : Prop) (b : BindingId) (es : List Observation) (reads : List Read) (s : Session) : Prop where
  registered {z : Source} {n : Nat} {l : Listener} : (n, l) ∈ (s.store.listeners z).entries ↔
    ∃ c, l = .binding c ∧ (s.Records c z n ∨ c = b ∧ ∃ e ∈ es, e.source = z ∧ e.token = n)
  distinct : es.Pairwise fun d e => d.source ≠ e.source
  apart {e : Observation} {n : Nat} : e ∈ es → ¬s.Records b e.source n
  heard : P → ∀ o, s.store.isLive o = true ↔
    (s.store.listeners (.observer o)).entries ≠ [] ∨ ∃ i, .stream i o ∈ reads

/-! ### Changes that registrations and records do not see -/

/-- What the host has a session for besides: its records, and what its sinks are to do. -/
structure Apart (s t : Session) : Prop where
  records : t.records = s.records
  actions (k : SinkId) : (t.handlers.get? k).map Handler.actions = (s.handlers.get? k).map Handler.actions
  fresh : s.store.fresh ≤ t.store.fresh

theorem Apart.refl : Apart s s := ⟨rfl, fun _ => rfl, Nat.le_refl _⟩

theorem Apart.trans (h : Apart s t) (h' : Apart t u) : Apart s u where
  records := h'.records.trans h.records
  actions k := (h'.actions k).trans (h.actions k)
  fresh := Nat.le_trans h.fresh h'.fresh

theorem Steady.apart (h : Steady s t) : Apart s t :=
  ⟨h.records, fun _ => by rw [h.handlers], Nat.le_of_eq h.fresh.symm⟩

/-- Registrations and records are the same, and if it matters, so are the observers that are live. -/
structure Still (P : Prop) (s t : Session) : Prop extends Apart s t where
  dues (c : BindingId) : (t.bindings.get? c).map Binding.dues = (s.bindings.get? c).map Binding.dues
  entries (z : Source) : (t.store.listeners z).entries = (s.store.listeners z).entries
  live : P → ∀ o, t.store.isLive o = s.store.isLive o

theorem Still.trans (h : Still P s t) (h' : Still P t u) : Still P s u where
  toApart := h.toApart.trans h'.toApart
  dues c := (h'.dues c).trans (h.dues c)
  entries z := (h'.entries z).trans (h.entries z)
  live hP o := (h'.live hP o).trans (h.live hP o)

/-- A change of nothing but other parts of a session. -/
theorem Still.of_store (ha : Apart s t) (hb : t.bindings = s.bindings) (ho : t.store.objects = s.store.objects)
    (hv : t.store.observers = s.store.observers) (hc : t.store.collections = s.store.collections) : Still P s t where
  toApart := ha
  dues c := by rw [hb]
  entries z := by cases z <;> simp only [Store.listeners, Store.object, ho, hv, hc]
  live _ o := by simp only [Store.isLive, hv]

theorem records_of_dues (h : (t.bindings.get? c).map Binding.dues = (s.bindings.get? c).map Binding.dues) {n : Nat}
    (hs : s.Records c z n) : t.Records c z n := by
  obtain ⟨x, e, hx, he, hz⟩ := hs
  rw [hx] at h
  obtain ⟨y, hy, hd⟩ := Option.map_eq_some_iff.1 h
  have hentries : y.observations.entries = x.observations.entries := congrArg Prod.snd hd
  exact ⟨y, e, hy, hentries ▸ he, hz⟩

theorem records_congr (h : ∀ c, (t.bindings.get? c).map Binding.dues = (s.bindings.get? c).map Binding.dues)
    (c : BindingId) (z : Source) (n : Nat) : t.Records c z n ↔ s.Records c z n :=
  ⟨records_of_dues (h c).symm, records_of_dues (h c)⟩

theorem Owes.congr (h : Owes P b es reads s) (hr : ∀ c z n, t.Records c z n ↔ s.Records c z n)
    (he : ∀ z, (t.store.listeners z).entries = (s.store.listeners z).entries)
    (hl : P → ∀ o, t.store.isLive o = s.store.isLive o) : Owes P b es reads t where
  registered := by
    intro z n l
    rw [he, h.registered]
    simp only [hr]
  distinct := h.distinct
  apart hmem := by
    rw [hr]
    exact h.apart hmem
  heard hP o := by
    rw [hl hP, he]
    exact h.heard hP o

theorem Owes.still (h : Owes P b es reads s) (hst : Still P s t) : Owes P b es reads t :=
  h.congr (records_congr hst.dues) hst.entries hst.live

/-- What one binding owes is nothing to another if it owes nothing. -/
theorem Owes.change (h : Owes P b [] reads s) (c : BindingId) : Owes P c [] reads s where
  registered := by
    intro z n l
    rw [h.registered]
    simp
  distinct := .nil
  apart hmem := by cases hmem
  heard := h.heard

theorem Owes.isPresent (h : Owes P b [] reads s) {n : Nat} {l : Listener} (hl : (n, l) ∈ (s.store.listeners z).entries) :
    s.isPresent l = true := by
  obtain ⟨c, rfl, hc⟩ := h.registered.1 hl
  obtain ⟨x, e, hx, -⟩ : s.Records c z n := hc.resolve_right fun ⟨_, e, he, _⟩ => by cases he
  simp [Session.isPresent, Table.contains, hx]

theorem fresh_sweep (s : Store) (alive : Listener → Bool) (z : Source) : (s.sweep alive z).fresh = s.fresh := by
  cases z <;> rfl

/-- All listeners are there, so none is forgotten when they are told. -/
theorem Owes.still_notify (h : Owes P b [] reads s) (z : Source) (new previous : Value) :
    Still P s (s.notify z new previous).session where
  toApart := ⟨rfl, fun _ => rfl, Nat.le_of_eq (fresh_sweep ..).symm⟩
  dues _ := rfl
  entries d := by
    have hsweep := (Store.relists_sweep s.store s.isPresent z).entries d
    refine hsweep.trans ?_
    split
    · rw [List.filter_eq_self]
      exact fun p hp => h.isPresent hp
    · rfl
  live _ o := (Store.relists_sweep s.store s.isPresent z).live o

theorem listeners_put (s : Store) (p : ObjectId) (n : String) (v : Value) (z : Source) :
    (s.setObject p ((s.object p).put n v)).listeners z = s.listeners z := by
  cases z with
  | property q m =>
    simp only [Store.listeners, Store.object_setObject]
    split
    next hpq => rw [← hpq, Object.put]
    · rfl
  | observer | collection => rfl

theorem still_put {p : ObjectId} {n : String} {v : Value} :
    Still P s { s with store := s.store.setObject p ((s.store.object p).put n v) } :=
  ⟨⟨rfl, fun _ => rfl, Nat.le_refl _⟩, fun _ => rfl, fun z => by rw [listeners_put], fun _ _ => rfl⟩

theorem still_close (s : Session) (d : Subscription) : Still P s (s.close d) := by
  refine .of_store (steady_close s d).apart (close_bindings ..) (close_objects ..) (close_observers ..) ?_
  cases d <;> rfl

theorem still_modifyBinding {f : Binding → Binding} (hf : ∀ x, (f x).dues = x.dues) (b : BindingId) :
    Still P s (s.modifyBinding b f) where
  toApart := ⟨rfl, fun _ => rfl, Nat.le_refl _⟩
  dues c := by
    rw [get?_modifyBinding]
    split
    next hbc =>
      subst hbc
      cases s.bindings.get? b with
      | none => rfl
      | some x => exact congrArg some (hf x)
    · rfl
  entries _ := rfl
  live _ _ := rfl

/-- An observer that is told keeps its listeners, and is no more and no less destroyed. -/
theorem still_told {d : Observer} (hd : s.store.observers.get? o = some d) (v : StreamEvent) :
    Still P s { s with store := s.store.setObserver o (d.receive v).1 } where
  toApart := ⟨rfl, fun _ => rfl, Nat.le_refl _⟩
  dues _ := rfl
  entries z := by
    cases z with
    | observer p =>
      by_cases hop : o = p
      · subst hop
        simp [Store.listeners, Store.setObserver, Table.get?_insert, hd, Observer.receive_listeners]
      · simp [Store.listeners, Store.setObserver, Table.get?_insert, hop]
    | property | collection => rfl
  live _ p := by
    by_cases hop : o = p
    · subst hop
      simp [Store.isLive, Store.setObserver, Table.get?_insert, hd, Observer.isDestroyed_receive]
    · simp [Store.isLive, Store.setObserver, Table.get?_insert, hop]

/-! ### Giving up registrations -/

theorem listeners_destroy (s : Session) (o : ObserverId) (z : Source) :
    (s.destroy o).store.listeners z = s.store.listeners z := by
  unfold destroy
  split
  · rfl
  next x hx =>
    split
    · rfl
    · cases z with
      | observer p =>
        simp only [Store.listeners, close_observers, Store.setObserver, Table.get?_insert]
        by_cases hop : o = p
        · subst hop
          simp [hx]
        · simp [hop]
      | property => simp only [Store.listeners, object_close]; rfl
      | collection =>
        simp only [Store.listeners]
        cases x.subscription <;> rfl

/-- The registration of an entry that is owed is there. -/
theorem Owes.listed (h : Owes P b es reads s) (he : e ∈ es) :
    (e.token, Listener.binding b) ∈ (s.store.listeners e.source).entries :=
  h.registered.2 ⟨b, rfl, .inr ⟨rfl, e, he, rfl, rfl⟩⟩

/-- Without the registration of the first entry that is owed, the rest is owed. -/
theorem Owes.registered_tail (h : Owes P b (e :: es) reads s) {n : Nat} {l : Listener} :
    (n, l) ∈ ((s.store.unlisten e.token e.source).listeners z).entries ↔
      ∃ c, l = .binding c ∧ (s.Records c z n ∨ c = b ∧ ∃ d ∈ es, d.source = z ∧ d.token = n) := by
  have hfirst : (e.token, Listener.binding b) ∈ (s.store.listeners e.source).entries := h.listed (List.mem_cons_self ..)
  rw [(Store.relists_unlisten ..).entries]
  split
  next hz =>
    subst hz
    rw [List.mem_filter, h.registered]
    constructor
    · rintro ⟨⟨c, rfl, hc⟩, hn⟩
      refine ⟨c, rfl, hc.imp_right ?_⟩
      rintro ⟨rfl, d, hd, hsource, htoken⟩
      rcases List.mem_cons.1 hd with rfl | hd
      · simp [htoken] at hn
      · exact ⟨rfl, d, hd, hsource, htoken⟩
    · rintro ⟨c, rfl, hc⟩
      refine ⟨⟨c, rfl, hc.imp_right fun ⟨hcb, d, hd, hd'⟩ => ⟨hcb, d, List.mem_cons_of_mem _ hd, hd'⟩⟩, ?_⟩
      rcases hc with hc | ⟨rfl, d, hd, hsource, -⟩
      · -- the token is that of the entry only if the record of `b` still has it
        suffices hne : n ≠ e.token by simpa using hne
        rintro rfl
        have hlisted := h.registered.2 ⟨c, rfl, .inl hc⟩
        obtain rfl := Listener.binding.inj (Listeners.eq_of_token _ hlisted hfirst)
        exact h.apart (List.mem_cons_self ..) hc
      · exact absurd hsource.symm ((List.pairwise_cons.1 h.distinct).1 d hd)
  next hz =>
    rw [h.registered]
    refine exists_congr fun c => and_congr_right fun _ => or_congr_right (and_congr_right fun _ => ?_)
    simp [hz]

theorem Owes.unlisten (h : Owes P b (e :: es) [] s) : Owes P b es [] (s.unlisten e.source e.token) := by
  have hrecords : ∀ c z n, (s.unlisten e.source e.token).Records c z n ↔ s.Records c z n := by
    intro c z n
    unfold Records
    rw [bindings_unlisten]
  have hlive := (Store.relists_unlisten s.store e.token e.source).live
  have hentries := (Store.relists_unlisten s.store e.token e.source).entries
  have hsame : ∀ z, ((s.unlisten e.source e.token).store.listeners z) =
      (s.store.unlisten e.token e.source).listeners z := by
    intro z
    unfold Session.unlisten
    dsimp only
    split
    · split
      · rw [listeners_destroy]
      · rfl
    · rfl
  constructor
  case registered =>
    intro z n l
    rw [hsame, h.registered_tail]
    simp only [hrecords]
  case distinct => exact (List.pairwise_cons.1 h.distinct).2
  case apart =>
    intro d n hd
    rw [hrecords]
    exact h.apart (List.mem_cons_of_mem _ hd)
  case heard =>
    intro hP p
    have hheard : s.store.isLive p = true ↔ (s.store.listeners (.observer p)).entries ≠ [] := by simpa using h.heard hP p
    have hlisted := h.listed (List.mem_cons_self ..)
    rw [hsame]
    suffices hgoal : (s.unlisten e.source e.token).store.isLive p = true ↔
        ((s.store.unlisten e.token e.source).listeners (.observer p)).entries ≠ [] by simpa using hgoal
    cases hsource : e.source with
    | observer o =>
      rw [hsource] at hlive hentries hlisted
      have hhas : (s.store.listeners (.observer o)).has e.token = true :=
        List.any_eq_true.2 ⟨_, hlisted, by simp⟩
      unfold Session.unlisten
      simp only [hhas, Bool.true_and]
      split
      next hempty =>
        -- the last listener has left, and the observer is destroyed
        have hnil : ((s.store.unlisten e.token (.observer o)).listeners (.observer o)).entries = [] :=
          List.isEmpty_iff.1 hempty
        rw [isLive_destroy]
        by_cases hop : o = p
        · subst hop
          simp [hnil]
        · rw [hentries, if_neg (by simpa using hop)]
          simpa [hop, hlive] using hheard
      next hempty =>
        by_cases hop : o = p
        · subst hop
          have hne : ((s.store.unlisten e.token (.observer o)).listeners (.observer o)).entries ≠ [] :=
            fun hnil => hempty (List.isEmpty_iff.2 hnil)
          rw [hlive, hheard]
          exact ⟨fun _ => hne, fun _ hnil => by rw [hnil] at hlisted; cases hlisted⟩
        · rw [hentries, if_neg (by simpa using hop), hlive]
          exact hheard
    | property q m =>
      rw [hsource] at hlive hentries
      rw [hentries, if_neg (by simp)]
      exact (by rw [← hlive p] at hheard; exact hheard)
    | collection d =>
      rw [hsource] at hlive hentries
      rw [hentries, if_neg (by simp)]
      exact (by rw [← hlive p] at hheard; exact hheard)

/-- What is in a record is held. -/
theorem isHeld_of_records {n : Nat} (h : s.Records c (.observer o) n) : s.isHeld o.ref = true := by
  obtain ⟨x, e, hx, he, hsource, -⟩ := h
  exact isHeld_of_observed hx he hsource

theorem Owes.letGoObserver (h : Owes P b es [] s) (hes : ∀ e ∈ es, e.source ≠ .observer o) :
    Owes P b es [] (s.letGoObserver o) := by
  unfold Session.letGoObserver
  split
  · exact h
  next hheld =>
    split
    · exact h
    next d hd =>
      -- a record that had an entry for the observer would hold it
      have hnil : (s.store.listeners (.observer o)).entries = [] := by
        refine List.eq_nil_iff_forall_not_mem.2 fun r hl => ?_
        obtain ⟨n, l⟩ := r
        obtain ⟨c, -, hc | ⟨-, e, he, hsource, -⟩⟩ := h.registered.1 hl
        · exact hheld (isHeld_of_records hc)
        · exact hes e he hsource
      have herase : Owes P b es [] { s with store := { s.store with observers := s.store.observers.erase o } } := by
        have hentries : ∀ z, ((({ s.store with observers := s.store.observers.erase o } : Store)).listeners z).entries =
            (s.store.listeners z).entries := by
          intro z
          cases z with
          | observer p =>
            simp only [Store.listeners, Table.get?_erase] at hnil ⊢
            by_cases hop : o = p
            · subst hop
              rw [if_pos rfl, hnil]
            · rw [if_neg hop]
          | property | collection => rfl
        refine ⟨fun {z n l} => ?_, h.distinct, h.apart, fun hP p => ?_⟩
        · rw [hentries]
          exact h.registered
        · rw [hentries]
          by_cases hop : o = p
          · subst hop
            simp [Store.isLive, Table.get?_erase, hnil]
          · have hlive : (({ s.store with observers := s.store.observers.erase o } : Store)).isLive p = s.store.isLive p := by
              simp [Store.isLive, Table.get?_erase, hop]
            rw [hlive]
            exact h.heard hP p
      exact herase.still (still_close ..)

theorem Owes.release (h : Owes P b (e :: es) [] s) : Owes P b es [] (s.release e) := by
  have hun := h.unlisten
  unfold Session.release
  dsimp only
  split
  next o hsource =>
    refine hun.letGoObserver fun d hd => ?_
    have hne := (List.pairwise_cons.1 h.distinct).1 d hd
    rw [hsource] at hne
    exact hne.symm
  · exact hun

theorem Owes.releaseAll (h : Owes P b es [] s) : Owes P b [] [] (s.releaseAll es) := by
  unfold Session.releaseAll
  induction es generalizing s with
  | nil => exact h
  | cons e es ih => exact ih h.release

/-- What the record of a binding no longer has is owed. -/
theorem Owes.giveUp (h : Owes P b [] [] s) (hstore : t.store = s.store)
    (hother : ∀ c, b ≠ c → t.bindings.get? c = s.bindings.get? c)
    (hself : ∀ z n, s.Records b z n ↔ t.Records b z n ∨ ∃ e ∈ es, e.source = z ∧ e.token = n)
    (hdistinct : es.Pairwise fun d e => d.source ≠ e.source) (hapart : ∀ e ∈ es, ∀ n, ¬t.Records b e.source n) :
    Owes P b es [] t where
  registered := by
    intro z n l
    rw [hstore, h.registered]
    refine exists_congr fun c => and_congr_right fun _ => ?_
    by_cases hbc : b = c
    · subst hbc
      simpa using hself z n
    · have hcb : c ≠ b := fun hcb => hbc hcb.symm
      have hrecords : t.Records c z n ↔ s.Records c z n := by
        unfold Records
        rw [hother c hbc]
      simp [hrecords, hcb]
  distinct := hdistinct
  apart {e n} he := hapart e he n
  heard := by
    rw [hstore]
    exact h.heard

/-- A part of a record is taken out of it. -/
theorem Owes.giveUpPart (h : Owes P b [] [] s) (hx : s.bindings.get? b = some x) {f : Binding → Binding}
    (hall : ∀ e, e ∈ x.observations.entries ↔ e ∈ (f x).observations.entries ∨ e ∈ es)
    (hdistinct : es.Pairwise fun d e => d.source ≠ e.source)
    (hapart : ∀ d ∈ (f x).observations.entries, ∀ e ∈ es, d.source ≠ e.source) :
    Owes P b es [] (s.modifyBinding b f) := by
  have hget : (s.modifyBinding b f).bindings.get? b = some (f x) := by
    rw [get?_modifyBinding, if_pos rfl, hx, Option.map_some]
  refine h.giveUp rfl (fun c hbc => by rw [get?_modifyBinding, if_neg hbc]) (fun z n => ?_) hdistinct fun e he n hr => ?_
  · constructor
    · rintro ⟨y, e, hy, he, hsource⟩
      obtain rfl := Option.some.inj (hx.symm.trans hy)
      exact ((hall e).1 he).imp (fun he => ⟨_, e, hget, he, hsource⟩) fun he => ⟨e, he, hsource⟩
    · rintro (⟨y, e, hy, he, hsource⟩ | ⟨e, he, hsource⟩)
      · obtain rfl := Option.some.inj (hget.symm.trans hy)
        exact ⟨x, e, hx, (hall e).2 (.inl he), hsource⟩
      · exact ⟨x, e, hx, (hall e).2 (.inr he), hsource⟩
  · obtain ⟨y, d, hy, hd, hsource, -⟩ := hr
    obtain rfl := Option.some.inj (hget.symm.trans hy)
    exact hapart d hd e he hsource

/-- A binding goes, and its whole record is owed. -/
theorem Owes.giveUpAll (h : Owes P b [] [] s) (hx : s.bindings.get? b = some x) :
    Owes P b x.observations.entries [] { s with bindings := s.bindings.erase b } := by
  have hnone : ∀ {z n}, ¬({ s with bindings := s.bindings.erase b } : Session).Records b z n := by
    rintro z n ⟨y, e, hy, -⟩
    rw [Table.get?_erase, if_pos rfl] at hy
    cases hy
  refine h.giveUp rfl (fun c hbc => by rw [Table.get?_erase, if_neg hbc]) (fun z n => ?_) x.observations.distinct
    fun e _ n => hnone
  constructor
  · rintro ⟨y, e, hy, he, hsource⟩
    obtain rfl := Option.some.inj (hx.symm.trans hy)
    exact .inr ⟨e, he, hsource⟩
  · rintro (hr | ⟨e, he, hsource⟩)
    · exact absurd hr hnone
    · exact ⟨x, e, hx, he, hsource⟩

theorem Owes.clearStale (h : Owes P b [] [] s) : Owes P b [] [] (s.clearStale b) := by
  unfold Session.clearStale
  split
  · exact h
  next x hx =>
    refine (h.giveUpPart hx (fun e => ?_) (x.observations.distinct.filter _) fun d hd e he => ?_).releaseAll
    · simp only [Observations.fresh, List.mem_filter]
      cases x.observations.isFresh e <;> simp
    · obtain ⟨hd, hfresh⟩ := List.mem_filter.1 hd
      obtain ⟨he, hstale⟩ := List.mem_filter.1 he
      intro hsource
      obtain rfl := x.observations.eq_of_source hd he hsource
      simp [hfresh] at hstale

theorem Owes.clearObservations (h : Owes P b [] [] s) : Owes P b [] [] (s.clearObservations b) := by
  unfold Session.clearObservations
  split
  · exact h
  next x hx =>
    refine (h.giveUpPart hx (fun e => ?_) x.observations.distinct fun d hd => ?_).releaseAll
    · simp [Observations.cleared]
    · cases hd

/-! ### Entering what was read -/

theorem records_observeOne_of_ne (hbc : b ≠ c) {n : Nat} : (s.observeOne b x r).Records c z n ↔ s.Records c z n := by
  unfold Records
  rw [get?_observeOne, if_neg hbc]

/-- A source that the record has an entry for is entered again, and nothing is registered. -/
theorem observeOne_of_covers (hcovers : x.observations.covers (sourceOf r) = true) :
    s.observeOne b x r =
      { s with bindings := s.bindings.insert b { x with observations := x.observations.restamp (sourceOf r) } } := by
  unfold Session.observeOne Observations.observe
  rw [dif_pos hcovers]

/-- A source that the record has no entry for is entered with the token of a new registration. -/
theorem observeOne_of_not_covers (hcovers : ¬x.observations.covers (sourceOf r) = true) :
    s.observeOne b x r =
      { s with
        store := (s.store.listen (.binding b) (sourceOf r)).1
        bindings := s.bindings.insert b
          { x with
            observations :=
              x.observations.add (sourceOf r) (s.store.listen (.binding b) (sourceOf r)).2 hcovers } } := by
  unfold Session.observeOne Observations.observe
  rw [dif_neg hcovers]

theorem records_observeOne_of_covers (hx : s.bindings.get? b = some x)
    (hcovers : x.observations.covers (sourceOf r) = true) {n : Nat} :
    (s.observeOne b x r).Records c z n ↔ s.Records c z n := by
  by_cases hbc : b = c
  case neg => exact records_observeOne_of_ne hbc
  subst hbc
  have hget : (s.observeOne b x r).bindings.get? b =
      some { x with observations := x.observations.restamp (sourceOf r) } := by
    rw [observeOne_of_covers hcovers, Table.get?_insert, if_pos rfl]
  constructor
  · rintro ⟨y, e, hy, he, hsource, htoken⟩
    obtain rfl := Option.some.inj (hget.symm.trans hy)
    obtain ⟨d, hd, rfl⟩ := List.mem_map.1 he
    refine ⟨x, d, hx, hd, ?_⟩
    split at hsource <;> split at htoken <;> exact ⟨hsource, htoken⟩
  · rintro ⟨y, e, hy, he, hsource, htoken⟩
    obtain rfl := Option.some.inj (hx.symm.trans hy)
    refine ⟨_, _, hget, List.mem_map.2 ⟨e, he, rfl⟩, ?_⟩
    split <;> exact ⟨hsource, htoken⟩

theorem records_observeOne_of_not_covers (hx : s.bindings.get? b = some x)
    (hcovers : ¬x.observations.covers (sourceOf r) = true) {n : Nat} :
    (s.observeOne b x r).Records c z n ↔
      s.Records c z n ∨ c = b ∧ sourceOf r = z ∧ n = (s.store.listen (.binding b) (sourceOf r)).2 := by
  by_cases hbc : b = c
  case neg => simp [records_observeOne_of_ne hbc, Ne.symm hbc]
  subst hbc
  have hget : (s.observeOne b x r).bindings.get? b =
      some { x with
        observations := x.observations.add (sourceOf r) (s.store.listen (.binding b) (sourceOf r)).2 hcovers } := by
    rw [observeOne_of_not_covers hcovers, Table.get?_insert, if_pos rfl]
  constructor
  · rintro ⟨y, e, hy, he, hsource, htoken⟩
    obtain rfl := Option.some.inj (hget.symm.trans hy)
    rcases List.mem_append.1 he with he | he
    · exact .inl ⟨x, e, hx, he, hsource, htoken⟩
    · obtain rfl := List.mem_singleton.1 he
      exact .inr ⟨rfl, hsource, htoken.symm⟩
  · rintro (⟨y, e, hy, he, hsource, htoken⟩ | ⟨-, rfl, rfl⟩)
    · obtain rfl := Option.some.inj (hx.symm.trans hy)
      exact ⟨_, e, hget, List.mem_append_left _ he, hsource, htoken⟩
    · exact ⟨_, _, hget, List.mem_append_right _ (List.mem_singleton_self _), rfl, rfl⟩

theorem Owes.observeOne_of_covers (h : Owes P b [] (r :: reads) s) (hx : s.bindings.get? b = some x)
    (hcovers : x.observations.covers (sourceOf r) = true) : Owes P b [] reads (s.observeOne b x r) := by
  have hstore : (s.observeOne b x r).store = s.store := by rw [Session.observeOne_of_covers hcovers]
  have hsame : Owes P b [] (r :: reads) (s.observeOne b x r) :=
    h.congr (fun c z n => records_observeOne_of_covers hx hcovers) (fun z => by rw [hstore]) fun _ o => by rw [hstore]
  refine { hsame with heard := fun hP o => (hsame.heard hP o).trans ?_ }
  constructor
  · rintro (hne | ⟨i, hi⟩)
    · exact .inl hne
    · rcases List.mem_cons.1 hi with rfl | hi
      · -- the record covers the observer, so the binding is registered with it
        obtain ⟨d, hd, hsource⟩ := Observations.covers_iff.1 hcovers
        have hlisted := h.registered.2 ⟨b, rfl, .inl ⟨x, d, hx, hd, hsource, rfl⟩⟩
        rw [hstore]
        exact .inl (List.ne_nil_of_mem hlisted)
      · exact .inr ⟨i, hi⟩
  · rintro (hne | ⟨i, hi⟩)
    · exact .inl hne
    · exact .inr ⟨i, List.mem_cons_of_mem _ hi⟩

theorem Owes.observeOne_of_not_covers (h : Owes P b [] (r :: reads) s) (hx : s.bindings.get? b = some x)
    (hcovers : ¬x.observations.covers (sourceOf r) = true) (hr : s.store.Has (sourceOf r)) :
    Owes P b [] reads (s.observeOne b x r) := by
  have hstore : (s.observeOne b x r).store = (s.store.listen (.binding b) (sourceOf r)).1 := by
    rw [Session.observeOne_of_not_covers hcovers]
  have hlisten := Store.relists_listen (.binding b) hr
  have hentries : ∀ z, ((s.observeOne b x r).store.listeners z).entries = if sourceOf r = z then
      (s.store.listeners z).entries ++ [((s.store.listen (.binding b) (sourceOf r)).2, .binding b)]
      else (s.store.listeners z).entries := by
    intro z
    rw [hstore]
    exact hlisten.entries z
  constructor
  case registered =>
    intro z n l
    have hmem : (n, l) ∈ ((s.observeOne b x r).store.listeners z).entries ↔ (n, l) ∈ (s.store.listeners z).entries ∨
        sourceOf r = z ∧ n = (s.store.listen (.binding b) (sourceOf r)).2 ∧ l = .binding b := by
      rw [hentries]
      split
      next hz => simp [hz]
      next hz => simp [hz]
    simp only [hmem, h.registered, records_observeOne_of_not_covers hx hcovers]
    constructor
    · rintro (⟨c, rfl, hc | ⟨-, e, he, -⟩⟩ | ⟨hz, hn, rfl⟩)
      · exact ⟨c, rfl, .inl (.inl hc)⟩
      · cases he
      · exact ⟨b, rfl, .inl (.inr ⟨rfl, hz, hn⟩)⟩
    · rintro ⟨c, rfl, (hc | ⟨rfl, hz, hn⟩) | ⟨-, e, he, -⟩⟩
      · exact .inl ⟨c, rfl, .inl hc⟩
      · exact .inr ⟨hz, hn, rfl⟩
      · cases he
  case distinct => exact .nil
  case apart =>
    intro e n he
    cases he
  case heard =>
    intro hP o
    have hlive : (s.observeOne b x r).store.isLive o = s.store.isLive o := by
      rw [hstore]
      exact hlisten.live o
    rw [hlive, h.heard hP o, hentries]
    constructor
    · rintro (hne | ⟨i, hi⟩)
      · left
        split
        · simp
        · exact hne
      · rcases List.mem_cons.1 hi with rfl | hi
        · exact .inl (by simp [sourceOf])
        · exact .inr ⟨i, hi⟩
    · rintro (hne | ⟨i, hi⟩)
      · -- an observer that only the new registration listens to has just been read through
        split at hne
        next hz =>
          cases r with
          | property p n => cases hz
          | stream i p =>
            obtain rfl := Source.observer.inj hz
            exact .inr ⟨i, List.mem_cons_self ..⟩
        · exact .inl hne
      · exact .inr ⟨i, List.mem_cons_of_mem _ hi⟩

/-- A source that was read before gets no second registration, and another one gets one. -/
theorem Owes.observeOne (h : Owes P b [] (r :: reads) s) (hx : s.bindings.get? b = some x)
    (hr : s.store.Has (sourceOf r)) : Owes P b [] reads (s.observeOne b x r) := by
  by_cases hcovers : x.observations.covers (sourceOf r) = true
  · exact h.observeOne_of_covers hx hcovers
  · exact h.observeOne_of_not_covers hx hcovers hr

theorem Owes.observe (h : Owes P b [] reads s) (hx : s.bindings.get? b = some x) (hr : s.Readable reads) :
    Owes P b [] [] (s.observe b reads) := by
  induction reads generalizing s x with
  | nil => exact h
  | cons r reads ih =>
    have hget := get?_observeOne s b x r b
    rw [if_pos rfl] at hget
    rw [observe_cons hx]
    exact ih (h.observeOne hx (hr r (by simp))) hget (hr.observeOne b x)

end Session

end DataBinding
