import DataBinding.Proofs.Bystanders
import DataBinding.Proofs.FailedUpdates
import DataBinding.Proofs.ReleasedOnce

/-!
# Binds that fail

A binding that is bound and comes to no value is unbound again, and everything that its evaluation has done is taken
back: what was registered is released, and with that the observers that were opened for it (`Round.takenBack`). What is
left is the session as it is when the binding is just unbound (`Restored`, `failedBind_play`). It takes that every
observer is listened to before (`AllHeard`), for one that nobody listens to goes with the first listener that comes and
leaves. Where listening and holding is left to bindings this is so (`allHeard_of_covered`).
-/

namespace DataBinding

/-- The session when a round has failed for which a binding was bound, and the binding is unbound again. -/
def Round.takenBack (r : Round) : Session :=
  (r.entered.modifyBinding r.id fun x => { x with state := none }).clearObservations r.id

/-- The sessions are the same but for a binding and for what nothing leads to. -/
structure Restored (b : BindingId) (s t : Session) : Prop where
  bindings {c : BindingId} : b ≠ c → t.bindings.get? c = s.bindings.get? c
  property {p : ObjectId} (n : String) : s.store.Knows (.object p) → t.store.property p n = s.store.property p n
  /-- Sources have the same registrations, under the same tokens and in the same order. -/
  listed (z : Source) : (t.store.listeners z).entries = (s.store.listeners z).entries
  /-- There are the same observers, with the same values, subscriptions and states. -/
  observers (o : ObserverId) :
    (t.store.observers.get? o).map Observer.core = (s.store.observers.get? o).map Observer.core
  streams {i : StreamId} : s.store.Knows (.stream i) → t.coreOf i = s.coreOf i
  /-- Subjects tell the same sinks, under the same tokens and in the same order. -/
  sinks {i : StreamId} : s.store.Knows (.stream i) → (t.rollOf i).map Session.Roll.sinks = (s.rollOf i).map Session.Roll.sinks
  handlers : t.handlers = s.handlers

/-- A round that has failed has left its binding unbound and otherwise as it was, in a session that was `t` before the
binding was bound, that is `v` now, and that would be `u` if the binding had just been unbound. -/
structure TakesBack (r : Round) (t u v : Session) : Prop extends Restored r.id u v where
  before : t.bindings.get? r.id = some r.binding
  after : ∃ n, v.bindings.get? r.id = some { r.binding with state := none, observations := { version := n } }
  untouched {p : ObjectId} (n : String) : t.store.Knows (.object p) → v.store.property p n = t.store.property p n
  /-- The evaluation has subscribed observers to cold streams, and just these subscriptions have been released since,
  each of them once. -/
  released : ∃ gone : List (Sink × String), v.released = u.released ++ gone.map (·.2) ∧ (gone.map (·.1)).Nodup ∧
    ∀ k label, (k, label) ∈ gone ↔ r.evaluated.coldOf k = some label ∧ u.coldOf k = none

namespace Session

variable {new gone : List (Sink × String)} {os : List ObserverId} {s t : Session} {a : Act} {as : List Act}
  {b : BindingId} {d : Command} {r : Round} {x : Binding} {k : Sink} {label : String} {o : ObserverId}
  {e : BindError}

/-- Each live observer is listened to. -/
def AllHeard (s : Session) : Prop :=
  ∀ o, s.store.isLive o = true → (s.store.listeners (.observer o)).entries ≠ []

theorem allHeard_iff :
    AllHeard s ↔ ∀ e ∈ s.store.observers.entries, e.2.isDestroyed = true ∨ e.2.listeners.isEmpty = false := by
  have hlisteners : ∀ {o x}, s.store.observers.get? o = some x → s.store.listeners (.observer o) = x.listeners :=
    fun hx => by rw [Store.listeners, hx]
  constructor
  · intro h e he
    have hx := Table.mem_entries.1 he
    refine or_iff_not_imp_left.2 fun hlive => ?_
    have hheard := h e.1 (Store.isLive_iff.2 ⟨e.2, hx, by simpa using hlive⟩)
    rw [hlisteners hx] at hheard
    exact List.isEmpty_eq_false_iff.2 hheard
  · intro h o ho
    obtain ⟨x, hx, hlive⟩ := Store.isLive_iff.1 ho
    rcases h _ (Table.mem_entries.2 hx) with hdead | hheard
    · cases hlive.symm.trans hdead
    · rw [hlisteners hx]
      exact List.isEmpty_eq_false_iff.1 hheard

instance : Decidable s.AllHeard := decidable_of_iff _ allHeard_iff.symm

/-- Observers that bindings hold are listened to, if the host leaves it to bindings to listen. -/
theorem allHeard_of_covered (has : ∀ a ∈ as, a.defers false = true)
    (hheld : ∀ o, (initial.play as).isHeld o.ref = true →
      IsCovered Binding.observations (initial.play as).bindings o) : (initial.play as).AllHeard := by
  intro o hlive hnil
  obtain ⟨ds, hledger⟩ := exists_ledger as
  have hheld' : Holding (initial.play as) o :=
    (hledger.attended.held (Store.isSome_of_isLive hlive)).resolve_right List.not_mem_nil
  obtain ⟨b, x, hx, hcovers⟩ := hheld o (isHeld_iff.2 hheld')
  obtain ⟨d, hd, hsource⟩ := Observations.covers_iff.1 hcovers
  have hregistered : (initial.play as).IsRegistered b d :=
    isRegistered_of_recorded has (by rw [recordOf_of_get? hx]; exact hd)
  rw [IsRegistered, hsource, hnil] at hregistered
  cases hregistered

/-! ### The bind itself -/

/-- A bind that fails begins a round, which comes to no value and is taken back. -/
theorem execute_bind_failed {binding scope : String} {host : Option String}
    (he : (t.execute (.bind binding scope host)).reply = .failed e) :
    ∃ r x, t.bindRound? (.bind binding scope host) = some r ∧ r.result = .error x ∧ e = .expression x ∧
      t.execute (.bind binding scope host) = { session := r.takenBack, reply := .failed e } := by
  obtain hunknown | ⟨b, x, y, -, -, -, -, hbound⟩ | ⟨r, hr⟩ := execute_bind t binding scope host
  · rw [hunknown] at he
    cases he
  · rw [hbound] at he
    cases he
  · rw [execute_of_bindRound hr, Round.answer] at he ⊢
    cases hresult : r.result with
    | ok v =>
      rw [hresult] at he
      cases he
    | error x =>
      rw [hresult] at he
      obtain rfl : BindError.expression x = e := Reply.failed.inj he
      exact ⟨r, x, hr, hresult, rfl, rfl⟩

theorem session_unbind {binding : String} (hb : t.binding? binding = some (b, x)) :
    (t.execute (.unbind binding)).session = t.unbind b := by
  simp [execute, answer?, answerUnbind, hb]

/-! ### What an evaluation touches and subscribes -/

theorem exists_evaluateBound_eq (s : Session) (x : Binding) (y : Bound) :
    ∃ store systems, (s.evaluateBound x y).1 = { s with store, systems } := by
  unfold evaluateBound evaluate
  split <;> exact ⟨_, _, rfl⟩

theorem exists_observe_eq (s : Session) (b : BindingId) (reads : List Read) :
    ∃ store bindings, s.observe b reads = { s with store, bindings } := by
  induction reads generalizing s with
  | nil => exact ⟨_, _, rfl⟩
  | cons d reads ih =>
    cases hx : s.bindings.get? b with
    | none =>
      obtain ⟨store, bindings, h⟩ := ih s
      refine ⟨store, bindings, ?_⟩
      rw [← h]
      simp only [observe, List.foldl_cons, hx]
    | some x =>
      obtain ⟨store, bindings, h⟩ := ih (s.observeOne b x d)
      exact ⟨store, bindings, by rw [observe_cons hx, h]; rfl⟩

/-- A round touches the store, registries and bindings, and nothing that the host has. -/
theorem exists_entered_eq (r : Round) :
    ∃ store systems bindings, r.entered = { r.session with store, systems, bindings } := by
  obtain ⟨store, systems, hevaluated⟩ := exists_evaluateBound_eq (r.session.nextRound r.id) r.binding r.bound
  obtain ⟨store', bindings, hentered⟩ := exists_observe_eq r.evaluated r.id r.reads
  refine ⟨store', systems, bindings, ?_⟩
  rw [Round.entered, hentered, Round.evaluated, hevaluated]
  rfl

/-- Where nothing was released, those were subscribed that have a subscription and had none. -/
theorem Turnover.new_iff (h : Turnover new [] s t) (hs : Attended os s) :
    (k, label) ∈ new ↔ t.coldOf k = some label ∧ s.coldOf k = none := by
  have hyoung : (k, label) ∈ new → s.coldOf k = none := fun hk =>
    Option.eq_none_iff_forall_ne_some.2 fun l hl => Nat.lt_irrefl _ (Nat.lt_of_lt_of_le (hs.sinks hl) (h.made hk).1)
  constructor
  · intro hk
    refine ⟨?_, hyoung hk⟩
    cases ht : t.coldOf k with
    | none => exact absurd (h.gone_iff.2 ⟨.inr hk, ht⟩) List.not_mem_nil
    | some l =>
      rcases h.kept ht with hold | hl
      · exact absurd ((hyoung hk).symm.trans hold) nofun
      · rw [h.alone hk hl]
  · rintro ⟨ht, hnone⟩
    exact (h.kept ht).resolve_left fun hold => absurd (hnone.symm.trans hold) nofun

/-- Where sinks are subscribed to what they were before, just those have been released that were subscribed meanwhile. -/
theorem Turnover.gone_iff_new (h : Turnover new gone s t) (hs : Attended os s) (hcold : t.coldOf k = s.coldOf k) :
    (k, label) ∈ gone ↔ (k, label) ∈ new := by
  rw [h.gone_iff, hcold]
  constructor
  · rintro ⟨hold | hk, hnone⟩
    · exact absurd (hnone.symm.trans hold) nofun
    · exact hk
  · refine fun hk => ⟨.inr hk, Option.eq_none_iff_forall_ne_some.2 fun l hl => ?_⟩
    exact Nat.lt_irrefl _ (Nat.lt_of_lt_of_le (hs.sinks hl) (h.made hk).1)

/-- The observers that a round has opened for cold streams. -/
def opened (r : Round) : List (Sink × String) := openedIn r.evaluated.store r.reads r.session.store.fresh

/-- The binding that evaluates holds what it has read. -/
theorem Ready.tends (h : Ready r x) : Tends (opened r) os os r.session r.entered := by
  obtain ⟨heval, -, hreadable⟩ := tends_evaluateBound h.sound h.get? h.state r.binding rfl
  exact ((undisturbed_nextRound ..).tends.trans (heval os)).before
    (tends_observe (get?_evaluateBound h.get? r.binding r.bound) hreadable)

/-- Those were opened for cold streams that have subscriptions to these and had none. -/
theorem Ready.mem_opened_iff (h : Ready r x) (hs : Attended os r.session) :
    (k, label) ∈ opened r ↔ r.evaluated.coldOf k = some label ∧ r.session.coldOf k = none := by
  have hs' := ((undisturbed_nextRound r.session r.id).tends hs).2
  have heval : Tends (opened r) os _ (r.session.nextRound r.id) r.evaluated :=
    (tends_evaluateBound h.sound h.get? h.state r.binding rfl).1 os
  obtain ⟨⟨gone, hturn⟩, -⟩ := heval hs'
  -- an evaluation puts nothing on record
  have hlog : r.evaluated.released = (r.session.nextRound r.id).released := by
    obtain ⟨store, systems, hevaluated⟩ := exists_evaluateBound_eq (r.session.nextRound r.id) r.binding r.bound
    rw [Round.evaluated, hevaluated]
    rfl
  obtain rfl : gone = [] := by
    have hnoted := hturn.noted
    rw [hlog] at hnoted
    exact List.map_eq_nil_iff.1 (List.append_right_eq_self.1 hnoted.symm)
  exact hturn.new_iff hs'

theorem filter_registrations {ls : Listeners} {xs : List (Nat × Listener)} {es : List Observation} {z : Source}
    (h : ls.entries = xs ++ registrations b es z) :
    ls.entries.filter (fun l => ∀ e ∈ es, e.source = z → e.token ≠ l.1) = xs := by
  have hascending := ls.ascending
  rw [h] at hascending ⊢
  have hxs : xs.filter (fun l => ∀ e ∈ es, e.source = z → e.token ≠ l.1) = xs := by
    refine List.filter_eq_self.2 fun l hl => decide_eq_true fun e he hz heq => ?_
    have hmem : (e.token, .binding b) ∈ registrations b es z := List.mem_map.2 ⟨e, List.mem_filter.2 ⟨he, by simpa using hz⟩, rfl⟩
    have hlt := (List.pairwise_append.1 hascending).2.2 l hl _ hmem
    exact absurd hlt (by simp [heq])
  have hnone : (registrations b es z).filter (fun l => ∀ e ∈ es, e.source = z → e.token ≠ l.1) = [] := by
    refine List.filter_eq_nil_iff.2 fun l hl hall => ?_
    obtain ⟨e, he, rfl⟩ := List.mem_map.1 hl
    obtain ⟨he, hz⟩ := List.mem_filter.1 he
    exact of_decide_eq_true hall e he (of_decide_eq_true hz) rfl
  rw [List.filter_append, hxs, hnone, List.append_nil]

/-! ### What is taken back -/

/-- The session is in order, and a binding begins the round in it for which it is bound. -/
structure Begins (t : Session) (r : Round) : Prop where
  sound : Sound (· ∈ t.held) t
  dated : Dated t
  resting : Resting t
  attended : Attended [] t
  wired : Wired t
  enrolled : Enrolled t
  round : ∃ d, t.bindRound? d = some r

namespace Begins

theorem session_eq (h : Begins t r) : r.session = t.boundTo r.id r.bound := by
  obtain ⟨d, hr⟩ := h.round
  obtain ⟨binding, scope, host, -, -, -, -, -, hsession⟩ := bindRound?_eq_some hr
  exact hsession

theorem store_eq (h : Begins t r) : r.session.store = (t.unbind r.id).store := by
  rw [h.session_eq]
  rfl

theorem get? (h : Begins t r) : t.bindings.get? r.id = some r.binding := by
  obtain ⟨d, hr⟩ := h.round
  obtain ⟨binding, scope, host, -, hb, -⟩ := bindRound?_eq_some hr
  exact get?_of_binding? hb

theorem ready (h : Begins t r) : Ready r { r.binding.unbound with state := some r.bound } := by
  obtain ⟨d, hr⟩ := h.round
  exact ready_of_bind h.sound h.dated hr

/-- The round begins with an empty record. -/
theorem empty (h : Begins t r) : r.binding.unbound.observations.entries = [] := by
  obtain ⟨d, hr⟩ := h.round
  have hnone := (releases_of_bind h.resting hr).1
  rw [recordOf_of_get? h.ready.get?] at hnone
  exact hnone

/-- What the round has entered is all that the binding has in its record. -/
theorem enters (h : Begins t r) :
    ∃ o : Observations, r.entered.bindings.get? r.id =
        some { r.binding.unbound with state := some r.bound, observations := o } ∧
      ∀ z, (r.entered.store.listeners z).entries =
        ((t.unbind r.id).store.listeners z).entries ++ registrations r.id o.entries z := by
  obtain ⟨o, added, ho, henters⟩ := h.ready.enters
  obtain rfl : o.entries = added := henters.entries_of_nil h.empty
  refine ⟨o, ho, fun z => ?_⟩
  rw [henters.listed, h.ready.spares.listeners, h.store_eq]

/-- All of it is released again. -/
theorem releases (h : Begins t r) :
    ∃ o : Observations, r.takenBack.bindings.get? r.id =
        some { r.binding with state := none, observations := o.cleared } ∧
      Releases o.entries r.entered r.takenBack ∧
      ∀ z, (r.entered.store.listeners z).entries =
        ((t.unbind r.id).store.listeners z).entries ++ registrations r.id o.entries z := by
  obtain ⟨o, ho, hlisted⟩ := h.enters
  have hidle : (r.entered.modifyBinding r.id fun x => { x with state := none }).bindings.get? r.id =
      some { r.binding.unbound with state := none, observations := o } := by
    rw [get?_modifyBinding, if_pos rfl, ho, Option.map_some]
  refine ⟨o, ?_, (releases_clearObservations hidle).of_stores, hlisted⟩
  rw [Round.takenBack, get?_clearObservations hidle]
  unfold Binding.unbound
  split <;> rfl

theorem get?_of_ne (h : Begins t r) {c : BindingId} (hc : r.id ≠ c) :
    r.takenBack.bindings.get? c = (t.unbind r.id).bindings.get? c := by
  have hread : r.entered.bindings.get? c = r.session.bindings.get? c :=
    get?_readAgain_of_ne hc r.session r.binding r.bound
  rw [Round.takenBack, get?_clearObservations_of_ne hc, get?_modifyBinding_of_ne hc, hread, h.session_eq, boundTo,
    get?_modifyBinding_of_ne hc]

/-- What the host has is as it was. -/
theorem host (h : Begins t r) :
    r.takenBack.names = (t.unbind r.id).names ∧ r.takenBack.pending = (t.unbind r.id).pending ∧
      r.takenBack.records = (t.unbind r.id).records ∧ r.takenBack.handlers = (t.unbind r.id).handlers := by
  have hsteady := steady_clearObservations (r.entered.modifyBinding r.id fun x => { x with state := none }) r.id
  obtain ⟨store, systems, bindings, hentered⟩ := exists_entered_eq r
  rw [Round.takenBack, hsteady.names, hsteady.pending, hsteady.records, hsteady.handlers, hentered, h.session_eq]
  exact ⟨rfl, rfl, rfl, rfl⟩

/-! ### Who is there -/

theorem undisturbed (h : Begins t r) : Undisturbed (t.unbind r.id) r.session := by
  rw [h.session_eq]
  exact undisturbed_modifyBinding _ _ fun _ _ _ => rfl

theorem turnover (h : Begins t r) :
    Attended [] (t.unbind r.id) ∧ (∃ gone, Turnover (opened r) gone (t.unbind r.id) r.takenBack) ∧
      Attended [] r.takenBack := by
  have hidle : Undisturbed r.entered (r.entered.modifyBinding r.id fun x => { x with state := none }) :=
    undisturbed_modifyBinding _ _ fun _ _ _ => rfl
  have hround : Tends (opened r) [] [] (t.unbind r.id) r.takenBack :=
    (h.undisturbed.tends.trans h.ready.tends).before (hidle.tends.before (tends_clearObservations r.id))
  have hu := (tends_unbind r.id h.attended).2
  exact ⟨hu, hround hu⟩

/-- The binding itself holds nothing, and everything else holds what it did. -/
theorem holding_iff (h : Begins t r) : Holding r.takenBack o ↔ Holding (t.unbind r.id) o := by
  obtain ⟨hnames, hpending, hrecords, -⟩ := h.host
  obtain ⟨p, hp, -⟩ := h.releases
  have hafter : ∀ c z, r.takenBack.bindings.get? c = some z → z.observations.covers (.observer o) = true → r.id ≠ c := by
    rintro c z hz hcovers rfl
    obtain rfl := Option.some.inj (hp.symm.trans hz)
    cases hcovers
  have hbefore : ∀ c z, (t.unbind r.id).bindings.get? c = some z → z.observations.covers (.observer o) = true →
      r.id ≠ c := by
    rintro c z hz hcovers rfl
    rw [get?_unbind_self h.get?] at hz
    obtain rfl := Option.some.inj hz
    rw [Observations.covers, h.empty] at hcovers
    cases hcovers
  have hcovered : IsCovered Binding.observations r.takenBack.bindings o ↔
      IsCovered Binding.observations (t.unbind r.id).bindings o := by
    constructor
    · rintro ⟨c, z, hz, hcovers⟩
      exact ⟨c, z, by rw [← h.get?_of_ne (hafter c z hz hcovers), hz], hcovers⟩
    · rintro ⟨c, z, hz, hcovers⟩
      exact ⟨c, z, by rw [h.get?_of_ne (hbefore c z hz hcovers), hz], hcovers⟩
  constructor
  · rintro (hn | ht | hc | hi)
    · exact .name (hnames ▸ hn)
    · exact .task (hpending ▸ ht)
    · exact .binding (hcovered.1 hc)
    · exact .record (hrecords ▸ hi)
  · rintro (hn | ht | hc | hi)
    · exact .name (hnames ▸ hn)
    · exact .task (hpending ▸ ht)
    · exact .binding (hcovered.2 hc)
    · exact .record (hrecords ▸ hi)

theorem present (h : Begins t r) (o : ObserverId) :
    (r.takenBack.store.observers.get? o).isSome = ((t.unbind r.id).store.observers.get? o).isSome := by
  obtain ⟨hu, -, hv⟩ := h.turnover
  rw [Bool.eq_iff_iff]
  constructor
  · exact fun ho => hu.present (h.holding_iff.1 ((hv.held ho).resolve_right List.not_mem_nil))
  · exact fun ho => hv.present (h.holding_iff.2 ((hu.held ho).resolve_right List.not_mem_nil))

/-! ### What is as it was -/

/-- What has been registered for the round is released again, and nothing else. -/
theorem listed (h : Begins t r) (z : Source) :
    (r.takenBack.store.listeners z).entries = ((t.unbind r.id).store.listeners z).entries := by
  obtain ⟨o, -, hreleases, hlisted⟩ := h.releases
  rcases hreleases.entries z with hentries | ⟨p, rfl, -, hnone⟩
  · rw [hentries, filter_registrations (hlisted z)]
  · -- an observer that has gone was not there before
    have hnone' : (t.unbind r.id).store.observers.get? p = none := by
      have hpresent := h.present p
      rw [hnone] at hpresent
      exact Option.isNone_iff_eq_none.1 (by simpa using hpresent.symm)
    rw [Store.listeners, Store.listeners, hnone, hnone']

/-- From the session in which the binding is unbound, moves lead to the one in which it is unbound again. -/
theorem moves (h : Begins t r) :
    Sound t.bare.hand (t.unbind r.id) ∧ Wired (t.unbind r.id) ∧ Enrolled (t.unbind r.id) ∧
      ∃ g, Moves (Reading r.id) (t.bare, t.unbind r.id) (g, r.takenBack) := by
  have hsound : Sound t.bare.hand t := h.sound
  have hunbind : Moves Silent (t.bare, t) (t.bare, t.unbind r.id) := Moves.unbind hsound r.id
  have hu : Sound t.bare.hand (t.unbind r.id) := hsound.moves hunbind
  refine ⟨hu, h.wired.moves hunbind hsound, h.enrolled.moves hunbind hsound h.wired, ?_⟩
  obtain ⟨d, hr⟩ := h.round
  obtain ⟨binding, scope, host, -, -, hy, hhost, -⟩ := bindRound?_eq_some hr
  have hbound : Moves Silent (t.bare, t.unbind r.id) (t.bare, r.session) := by
    rw [h.session_eq]
    refine Moves.withState hu r.id (some r.bound) fun z hz => ?_
    obtain rfl := Option.some.inj hz
    exact ⟨hsound.outside.scope hy, hsound.outside.host hhost⟩
  obtain ⟨g, hread, -⟩ := Moves.readAgain (hu.moves hbound) h.ready.get? rfl (Binding.system_of_request h.ready.request)
  have hentered : Sound g.hand r.entered := (hu.moves hbound).moves hread
  have hidle : Moves Silent (g, r.entered) (g, r.entered.modifyBinding r.id fun x => { x with state := none }) :=
    Moves.withState hentered r.id none nofun
  have hclear : Moves Silent (g, r.entered.modifyBinding r.id fun x => { x with state := none }) (g, r.takenBack) :=
    Moves.clearObservations (hentered.moves hidle) r.id
  exact ⟨g, hbound.reading.trans (hread.trans (hidle.trans hclear).reading)⟩

/-- An observer that is listened to lives on. -/
theorem live (h : Begins t r) (hheard : AllHeard t) (o : ObserverId) :
    r.takenBack.store.isLive o = (t.unbind r.id).store.isLive o := by
  obtain ⟨-, -, -, g, hm⟩ := h.moves
  rw [Bool.eq_iff_iff]
  constructor
  · intro hlive
    have hthere := h.present o ▸ Store.isSome_of_isLive hlive
    exact Moves.isLive hm (h.turnover.1.observers hthere) hlive
  · intro hlive
    have hunbind := releases_unbind h.get? (h.resting r.id r.binding h.get?)
    have hlisteners : (r.takenBack.store.listeners (.observer o)).entries ≠ [] := by
      intro hnil
      rw [h.listed] at hnil
      rw [hunbind.left (hheard o (hunbind.live hlive)) hnil] at hlive
      cases hlive
    obtain ⟨p, -, hreleases, -⟩ := h.releases
    obtain ⟨q, added, -, henters⟩ := h.ready.enters
    refine hreleases.stays hlisteners ?_
    rw [henters.live]
    exact h.ready.spares.isLive (h.store_eq ▸ hlive)

theorem observers (h : Begins t r) (hheard : AllHeard t) (o : ObserverId) :
    (r.takenBack.store.observers.get? o).map Observer.core = ((t.unbind r.id).store.observers.get? o).map Observer.core := by
  have hpresent := h.present o
  cases hx : r.takenBack.store.observers.get? o with
  | none =>
    rw [hx] at hpresent
    have hnone : (t.unbind r.id).store.observers.get? o = none :=
      Option.isNone_iff_eq_none.1 (by simpa using hpresent.symm)
    rw [hnone]
  | some x =>
    obtain ⟨-, -, -, g, hm⟩ := h.moves
    rw [hx] at hpresent
    obtain ⟨z, hz, hcore | ⟨hlive, hdead⟩⟩ :=
      Moves.observer_core hm (h.turnover.1.observers hpresent.symm) (fun d hd => by simp [Reading, Calm, Silent] at hd) hx
    · rw [hz, Option.map_some, Option.map_some, hcore]
    · have hsame := h.live hheard o
      simp [Store.isLive, hx, hz, hlive, hdead] at hsame

theorem subscriptionOf (h : Begins t r) (hheard : AllHeard t) :
    r.takenBack.subscriptionOf = (t.unbind r.id).subscriptionOf := by
  obtain ⟨hu, hwired, -, g, hm⟩ := h.moves
  funext k
  cases k with
  | handler k => simp only [Session.subscriptionOf, h.host.2.2.2]
  | observer o =>
    have hlive := h.live hheard o
    rw [← isSome_subscriptionOf, ← isSome_subscriptionOf] at hlive
    cases hbefore : (t.unbind r.id).subscriptionOf (.observer o) with
    | none =>
      rw [hbefore] at hlive
      exact Option.isNone_iff_eq_none.1 (by simpa using hlive)
    | some c =>
      have hold : o.number < (t.unbind r.id).store.fresh := hwired.old (k := .observer o) (by rw [hbefore]; rfl)
      rcases Moves.subscriptionOf hm hu hwired hold with hsame | hnone
      · exact hsame.trans hbefore
      · rw [hbefore, hnone] at hlive
        cases hlive

theorem restored (h : Begins t r) (hheard : AllHeard t) : Restored r.id (t.unbind r.id) r.takenBack := by
  obtain ⟨hu, hwired, henrolled, g, hm⟩ := h.moves
  have hstreams : ∀ {i : StreamId}, (t.unbind r.id).store.Knows (.stream i) →
      r.takenBack.coreOf i = (t.unbind r.id).coreOf i := by
    intro i hi
    refine Moves.coreOf hm (hu.old hi) ?_ ?_ <;> exact fun _ hd => by simp [Reading, Calm, Silent] at hd
  constructor
  case bindings => exact h.get?_of_ne
  case property =>
    intro p n hp
    obtain ⟨o, added, -, henters⟩ := h.ready.enters
    have hclear := steady_clearObservations (r.entered.modifyBinding r.id fun x => { x with state := none }) r.id
    have hentered : (r.takenBack.store.object p).properties = (r.entered.store.object p).properties := hclear.properties p
    have hobjects := h.ready.spares.objects (p := p) (h.store_eq ▸ hp)
    simp only [Store.property, Object.get, hentered, henters.properties]
    simp only [Store.object, hobjects, h.store_eq]
  case listed => exact h.listed
  case observers => exact h.observers hheard
  case streams => exact hstreams
  case sinks =>
    intro i hi
    exact sinks_eq hwired (hwired.moves hm hu) henrolled (henrolled.moves hm hu hwired) (h.subscriptionOf hheard)
      (hstreams hi)
  case handlers => exact h.host.2.2.2

theorem takesBack (h : Begins t r) (hheard : AllHeard t) : TakesBack r t (t.unbind r.id) r.takenBack where
  toRestored := h.restored hheard
  before := h.get?
  after := by
    obtain ⟨o, ho, -⟩ := h.releases
    exact ⟨o.version, ho⟩
  untouched {p} n hp := by
    have hunbind := steady_unbind t r.id
    rw [(h.restored hheard).property n (hunbind.knows hp)]
    simp only [Store.property, Object.get, hunbind.properties]
  released := by
    obtain ⟨hu, ⟨gone, hturn⟩, -⟩ := h.turnover
    refine ⟨gone, hturn.noted, hturn.once, fun k label => ?_⟩
    have hcold : r.takenBack.coldOf k = (t.unbind r.id).coldOf k := by rw [coldOf, h.subscriptionOf hheard, coldOf]
    have hs := (h.undisturbed.tends hu).2
    rw [hturn.gone_iff_new hu hcold, h.ready.mem_opened_iff hs, coldOf, coldOf, coldOf, h.undisturbed.sinks]

end Begins

/-- A run leads to sessions in order. -/
theorem begins_of_carriedOut (hc : (initial.play as).carriedOut? a = some (t, d)) (hr : t.bindRound? d = some r) :
    Begins t r := by
  obtain ⟨ds, hledger⟩ := exists_ledger as
  obtain ⟨hwired, henrolled⟩ := wired_play as
  have hattended : Attended [] t := by
    obtain ⟨-, rfl⟩ | ⟨label, cs, rest, -, hp, rfl⟩ := carriedOut?_eq_some hc
    · exact hledger.attended
    · have htake : Tends [] [] [] (initial.play as) { initial.play as with pending := [.perform label cs] ++ rest } :=
        tends_take hp (by simp) (by simp)
      exact (htake hledger.attended).2
  obtain ⟨ts, us, rfl, -⟩ := eq_of_carriedOut? hc
  exact
    { sound := sound_carriedOut? (sound_initial.play as) hc
      dated := dated_play as
      resting := resting_play as
      attended := hattended
      wired := { hwired with }
      enrolled := henrolled
      round := ⟨d, hr⟩ }

/-- A bind that fails leaves everything as it is when the binding is just unbound, if every observer is listened to. -/
theorem failedBind_play (as : List Act) {a : Act} {t : Session} {binding scope : String} {host : Option String}
    {e : BindError} (hc : (initial.play as).carriedOut? a = some (t, .bind binding scope host)) (hheard : AllHeard t)
    (he : (t.execute (.bind binding scope host)).reply = .failed e) :
    (t.execute (.bind binding scope host)).tasks = [] ∧
      ∃ r x, t.bindRound? (.bind binding scope host) = some r ∧ r.result = .error x ∧ e = .expression x ∧
        TakesBack r t (t.execute (.unbind binding)).session (t.execute (.bind binding scope host)).session := by
  obtain ⟨r, x, hr, hx, hex, hexecute⟩ := execute_bind_failed he
  refine ⟨by rw [hexecute], r, x, hr, hx, hex, ?_⟩
  obtain ⟨binding', scope', host', hd, hb, -⟩ := bindRound?_eq_some hr
  obtain ⟨rfl, rfl, rfl⟩ := Command.bind.inj hd
  rw [hexecute, session_unbind hb]
  exact (begins_of_carriedOut hc hr).takesBack hheard

/-- A conditional that is bound to another scope takes the other branch there, which reads a stream and then fails. It
shared the observer of the first branch with another binding. -/
theorem failedBind_play_conditional :
    let as : List Act := [.command (.makeSubject "s" (some (.int 1))), .command (.makeCold "k" [.next (.int 2)]),
      .command (.makeObject "model" [("ok", .bool true), ("a$", .stream "s")]),
      .command (.makeObject "model2" [("ok", .bool false), ("k$", .stream "k")]), .command (.makeObject "target" []),
      .command (.makeScope "scope" "model" none none), .command (.makeScope "scope2" "model2" none none),
      .command (.makeBinding "b" "main" (.ok (.streamScope "a$" 0 false)) "target" "x" {}),
      .command (.makeBinding "c" "main"
        (.ok (.conditional (.scope "ok" 0 false) (.streamScope "a$" 0 false)
          (.binary .add (.streamScope "k$" 0 false) (.callScope "fallback" [] 0)))) "target" "y" {}),
      .command (.bind "b" "scope" none), .step, .step, .command (.bind "c" "scope" none), .step, .step]
    let t := initial.play as
    let d : Command := .bind "c" "scope2" none
    ∃ r, t.bindRound? d = some r ∧ r.binding.isBound = true ∧ (t.execute d).session.released = ["k"] ∧
      TakesBack r t (t.execute (.unbind "c")).session (t.execute d).session := by
  intro as t d
  have hfacts : (match (t.execute d).reply with | .failed _ => true | _ => false) = true ∧
      (t.bindRound? d).all (fun r => r.binding.isBound) = true ∧ (t.execute d).session.released = ["k"] ∧
      t.AllHeard := by decide +kernel
  obtain ⟨hfailed, hbound, hreleased, hheard⟩ := hfacts
  obtain ⟨e, he⟩ : ∃ e, (t.execute d).reply = .failed e := by
    split at hfailed
    next e he => exact ⟨e, he⟩
    · cases hfailed
  obtain ⟨-, r, x, hr, -, -, hback⟩ := failedBind_play as (a := .command d) rfl hheard he
  rw [hr, Option.all_some] at hbound
  exact ⟨r, hr, hbound, hreleased, hback⟩

end Session

end DataBinding
