import DataBinding.Proofs.Rounds

/-!
# Exact records

The version of a record counts the rounds of its binding, and the entries have versions of rounds that there were
(`counts_play`). So as long as there are no more rounds than versions, the version of a round tells what it has read
from everything that earlier rounds have, whether these came to a value or not. When a round comes to a value and the
rest is released, the binding observes just what the round has read (`exactRecord_play`).
-/

namespace DataBinding

/-- The record is that of a binding that has had `n` rounds, and has entered what it has read in them. -/
structure Observations.Counts (n : Nat) (o : Observations) : Prop where
  version : o.version = UInt64.ofNat n
  entry {e : Observation} : e ∈ o.entries → ∃ k, 0 < k ∧ k ≤ n ∧ e.version = UInt64.ofNat k
  read {e : Observation} : e ∈ o.entries → ∃ d, Session.sourceOf d = e.source

namespace Observations.Counts

variable {n : Nat} {o o' : Observations}

theorem empty : Observations.Counts 0 {} where
  version := rfl
  entry h := by cases h
  read h := by cases h

theorem fresh (h : o.Counts n) : o.fresh.Counts n where
  version := h.version
  entry he := h.entry (List.mem_filter.1 he).1
  read he := h.read (List.mem_filter.1 he).1

theorem cleared (h : o.Counts n) : o.cleared.Counts n where
  version := h.version
  entry he := by cases he
  read he := by cases he

theorem nextRound (h : o.Counts n) : o.nextRound.Counts (n + 1) where
  version := by
    rw [Observations.nextRound, h.version, UInt64.ofNat_add]
    rfl
  entry he := by
    obtain ⟨k, hk, hn, hversion⟩ := h.entry he
    exact ⟨k, hk, Nat.le_succ_of_le hn, hversion⟩
  read he := h.read he

theorem unbound {x : Binding} (h : x.observations.Counts n) : x.unbound.observations.Counts n := by
  unfold Binding.unbound
  split
  · exact h.cleared
  · exact h

theorem refreshed {x : Binding} (h : x.observations.Counts n) (result : Except ExpressionError Value) :
    (x.refreshed result).observations.Counts n := by
  cases result with
  | ok v => exact h.fresh
  | error e => exact h

theorem rebound {x : Binding} (h : x.observations.Counts n) (result : Except ExpressionError Value) :
    (x.rebound result).observations.Counts n := by
  cases result with
  | ok v => exact h.fresh
  | error e => exact h.cleared

/-- What is entered gets the version of the round. -/
theorem enters (h : o.Counts n) (hn : 0 < n) {b : BindingId} {reads : List Read} {s t : Store} {added : List Observation}
    (he : Enters b reads s t o o' added) : o'.Counts n where
  version := he.version.trans h.version
  entry {e} hmem := by
    rw [he.entries] at hmem
    rcases List.mem_append.1 hmem with hmem | hmem
    · obtain ⟨d, hd, rfl⟩ := List.mem_map.1 hmem
      split
      · exact ⟨n, hn, Nat.le_refl n, h.version⟩
      · exact h.entry hd
    · exact ⟨n, hn, Nat.le_refl n, (he.read hmem).1.trans h.version⟩
  read {e} hmem := by
    rw [he.entries] at hmem
    rcases List.mem_append.1 hmem with hmem | hmem
    · obtain ⟨d, hd, rfl⟩ := List.mem_map.1 hmem
      have hread := h.read hd
      split <;> exact hread
    · obtain ⟨-, d, -, hsource⟩ := he.read hmem
      exact ⟨d, hsource⟩

/-- As long as there are versions left, no entry has the version of the next round. -/
theorem version_ne (h : o.Counts n) (hn : n < UInt64.size) {e : Observation} (he : e ∈ o.entries) :
    e.version ≠ o.nextRound.version := by
  obtain ⟨k, hk, hkn, hversion⟩ := h.entry he
  have hnext : o.nextRound.version = UInt64.ofNat (n + 1) := h.nextRound.version
  intro hsame
  rw [hversion, hnext] at hsame
  have hnat : k % UInt64.size = (n + 1) % UInt64.size := by simpa [UInt64.size] using congrArg UInt64.toNat hsame
  unfold UInt64.size at hn hnat
  omega

end Observations.Counts

namespace Enters

variable {b : BindingId} {reads : List Read} {s t : Store} {o o' : Observations} {added : List Observation}
  {e : Observation}

/-- If no entry had the version of the round before, those are fresh that were read. -/
theorem isFresh_iff (h : Enters b reads s t o o' added) (hold : ∀ e ∈ o.entries, e.version ≠ o.version)
    (he : e ∈ o'.entries) : o'.isFresh e = true ↔ ∃ d ∈ reads, Session.sourceOf d = e.source := by
  have hread : o'.isFresh e = true ↔ e.version = o.version := by simp [Observations.isFresh, h.version]
  rw [hread]
  rw [h.entries] at he
  rcases List.mem_append.1 he with he | he
  · obtain ⟨d, hd, rfl⟩ := List.mem_map.1 he
    have hmem : d.source ∈ reads.map Session.sourceOf ↔ ∃ c ∈ reads, Session.sourceOf c = d.source := List.mem_map
    by_cases hd' : d.source ∈ reads.map Session.sourceOf
    · rw [if_pos hd']
      exact ⟨fun _ => hmem.1 hd', fun _ => rfl⟩
    · rw [if_neg hd']
      exact ⟨fun hversion => absurd hversion (hold d hd), fun hc => absurd (hmem.2 hc) hd'⟩
  · obtain ⟨hversion, hc⟩ := h.read he
    exact ⟨fun _ => hc, fun _ => hversion⟩

/-- An entry that there was keeps its source and its token. -/
theorem exists_kept (h : Enters b reads s t o o' added) (he : e ∈ o.entries) :
    ∃ e' ∈ o'.entries, e'.source = e.source ∧ e'.token = e.token := by
  refine ⟨if e.source ∈ reads.map Session.sourceOf then { e with version := o.version } else e, ?_, ?_⟩
  · rw [h.entries]
    exact List.mem_append_left _ (List.mem_map.2 ⟨e, he, rfl⟩)
  · split <;> exact ⟨rfl, rfl⟩

/-- An entry of a source that had none is one of those that were added. -/
theorem mem_added (h : Enters b reads s t o o' added) (he : e ∈ o'.entries) (hnot : ¬o.covers e.source = true) :
    e ∈ added := by
  rw [h.entries] at he
  refine (List.mem_append.1 he).resolve_left fun he => hnot ?_
  obtain ⟨d, hd, rfl⟩ := List.mem_map.1 he
  refine Observations.covers_iff.2 ⟨d, hd, ?_⟩
  split <;> rfl

end Enters

namespace Session

variable {s t : Session} {a : Act} {as : List Act} {b : BindingId} {d : Command} {r : Round} {x z : Binding} {n : Nat}

/-! ### Counting rounds -/

/-- The records of bindings count their rounds. -/
theorem counts_play (as : List Act) {b : BindingId} {x : Binding} (hx : (initial.play as).bindings.get? b = some x) :
    x.observations.Counts (rounds as b) := by
  induction as using List.reverseRecOn generalizing x with
  | nil => cases hx
  | append_singleton as a ih =>
    rw [play_append] at hx
    have hsound := sound_initial.play as
    have hdated := dated_play as
    by_cases hround : ∃ r, (initial.play as).round? a = some r ∧ r.id = b
    · obtain ⟨r, hr, rfl⟩ := hround
      rw [rounds_of_round hr]
      rcases round?_eq_some hr with htold | ⟨t, d, hc, hbind⟩
      · have hready := ready_of_told hsound hdated htold
        obtain ⟨w, new, previous, ls, rest, -, -, -, hw, -⟩ := toldRound?_eq_some htold
        obtain ⟨o, added, ho, henters⟩ := hready.enters
        obtain rfl := Option.some.inj (hx.symm.trans (get?_act_of_toldRound htold ho))
        exact ((ih hw).nextRound.enters (Nat.succ_pos _) henters).refreshed _
      · obtain ⟨binding, scope, host, -, hb, -⟩ := bindRound?_eq_some hbind
        have ht := sound_carriedOut? hsound hc
        obtain ⟨ts, us, rfl, -⟩ := eq_of_carriedOut? hc
        obtain ⟨o, added, ho, henters⟩ := (ready_of_bind ht hdated hbind).enters
        obtain rfl := Option.some.inj (hx.symm.trans (get?_act_of_bindRound hc hbind ho))
        have hbefore : r.binding.observations.Counts (rounds as r.id) := ih (get?_of_binding? hb)
        exact (hbefore.unbound.nextRound.enters (Nat.succ_pos _) henters).rebound _
    · have hnot : ∀ r, (initial.play as).round? a = some r → r.id ≠ b := fun r hr hb => hround ⟨r, hr, hb⟩
      rw [rounds_of_ne hnot]
      rcases get?_of_no_round hsound hnot hx with ⟨w, hw, rfl | rfl⟩ | ⟨hnew, -, hempty, -⟩
      · exact ih hw
      · exact (ih hw).unbound
      · rw [rounds_of_new hnew, hempty]
        exact .empty

/-! ### What a round that comes to a value leaves -/

/-- The record of a binding. -/
def recordOf (s : Session) (b : BindingId) : Observations := ((s.bindings.get? b).map Binding.observations).getD {}

theorem recordOf_of_get? (hx : s.bindings.get? b = some x) : s.recordOf b = x.observations := by
  rw [recordOf, hx]
  rfl

end Session

/-- The session when a round has come to a value and all that it has not read has been released. -/
def Round.cleared (r : Round) : Session := r.entered.clearStale r.id

open Session (recordOf)

/-- When a round has come to a value and the rest is released, the binding observes what was read and nothing else, and
no registration was touched but those that come and go with that. -/
structure ExactRecord (r : Round) : Prop where
  /-- There is an entry for each source that was read, and for no other. -/
  covers_iff (z : Source) : (r.cleared.recordOf r.id).covers z = true ↔ r.HasRead z
  nodup : ((r.cleared.recordOf r.id).entries.map Observation.source).Nodup
  /-- What was recorded before and is read keeps its token, and its registrations are those that there were. -/
  kept {e : Observation} : e ∈ (r.session.recordOf r.id).entries → r.HasRead e.source →
    (∃ e' ∈ (r.cleared.recordOf r.id).entries, e'.source = e.source ∧ e'.token = e.token) ∧
      (r.cleared.store.listeners e.source).entries = (r.session.store.listeners e.source).entries
  /-- What was not recorded before gets one registration, after all others. -/
  added {e : Observation} : e ∈ (r.cleared.recordOf r.id).entries → ¬(r.session.recordOf r.id).covers e.source = true →
    (r.cleared.store.listeners e.source).entries =
      (r.session.store.listeners e.source).entries ++ [(e.token, .binding r.id)]
  /-- What was recorded before and is not read loses its registration and no other, unless it is gone altogether. -/
  released {e : Observation} : e ∈ (r.session.recordOf r.id).entries → ¬r.HasRead e.source →
    (∀ l, (e.token, l) ∉ (r.cleared.store.listeners e.source).entries) ∧
      ((r.cleared.store.listeners e.source).entries =
          (r.session.store.listeners e.source).entries.filter (fun l => l.1 ≠ e.token) ∨
        ∃ o, e.source = .observer o ∧ r.cleared.store.observers.get? o = none)
  /-- The registrations of all other sources stay as they are. -/
  others {z : Source} : ¬(r.session.recordOf r.id).covers z = true → ¬r.HasRead z →
    (r.cleared.store.listeners z).entries = (r.session.store.listeners z).entries
  /-- An observer that is left without a registration is destroyed. -/
  destroyed {o : ObserverId} : (r.session.store.listeners (.observer o)).entries ≠ [] →
    (r.cleared.store.listeners (.observer o)).entries = [] → r.cleared.store.isLive o = false

namespace Session

variable {s t : Session} {a : Act} {as : List Act} {b : BindingId} {d : Command} {r : Round} {x z : Binding} {n : Nat}

/-- A round leaves an exact record if it begins with no entry that has its version. -/
theorem Ready.exactRecord (h : Ready r x) (hold : ∀ e ∈ x.observations.entries, e.version ≠ x.observations.nextRound.version) :
    ExactRecord r := by
  obtain ⟨o, added, ho, henters⟩ := h.enters
  have hbefore : r.session.recordOf r.id = x.observations := recordOf_of_get? h.get?
  have hafter : r.cleared.recordOf r.id = o.fresh := recordOf_of_get? (get?_clearStale ho)
  have hreleases : Releases o.stale r.entered r.cleared := releases_clearStale ho
  have hfresh : ∀ {e}, e ∈ o.entries → (o.isFresh e = true ↔ r.HasRead e.source) := henters.isFresh_iff hold
  have hstart : ∀ z, (r.evaluated.store.listeners z).entries = (r.session.store.listeners z).entries := by
    intro z
    rw [h.spares.listeners]
  have hstale : ∀ {e}, e ∈ o.stale ↔ e ∈ o.entries ∧ ¬r.HasRead e.source := by
    intro e
    rw [Observations.stale, List.mem_filter]
    refine and_congr_right fun he => ?_
    rw [← hfresh he]
    simp
  -- what was read keeps the registrations that it has when all is entered
  have hkept : ∀ {z}, r.HasRead z → (r.cleared.store.listeners z).entries = (r.entered.store.listeners z).entries := by
    intro z hz
    refine hreleases.listed_of_not ?_
    rintro e he rfl
    exact (hstale.1 he).2 hz
  constructor
  case covers_iff =>
    intro z
    rw [hafter, Observations.covers_iff]
    constructor
    · rintro ⟨e, he, rfl⟩
      obtain ⟨he, hf⟩ := List.mem_filter.1 he
      exact (hfresh he).1 hf
    · intro hz
      obtain ⟨e, he, rfl⟩ := Observations.covers_iff.1 (henters.covers_iff.2 (.inr hz))
      exact ⟨e, List.mem_filter.2 ⟨he, (hfresh he).2 hz⟩, rfl⟩
  case nodup =>
    rw [hafter]
    exact List.pairwise_map.2 o.fresh.distinct
  case kept =>
    intro e he hread
    rw [hbefore] at he
    obtain ⟨e', he', hsource, htoken⟩ := henters.exists_kept he
    rw [hafter]
    refine ⟨⟨e', List.mem_filter.2 ⟨he', (hfresh he').2 (hsource ▸ hread)⟩, hsource, htoken⟩, ?_⟩
    rw [hkept hread, henters.listed_of_not (.inl (Observations.covers_iff.2 ⟨e, he, rfl⟩)), hstart]
  case added =>
    intro e he hnot
    rw [hbefore] at hnot
    rw [hafter] at he
    obtain ⟨he, hf⟩ := List.mem_filter.1 he
    rw [hkept ((hfresh he).1 hf), henters.listed_of_added (henters.mem_added he hnot), hstart]
  case released =>
    intro e he hnot
    rw [hbefore] at he
    obtain ⟨e', he', hsource, htoken⟩ := henters.exists_kept he
    have hmem : e' ∈ o.stale := hstale.2 ⟨he', hsource ▸ hnot⟩
    rw [← hsource, ← htoken]
    refine ⟨hreleases.not_mem hmem, (hreleases.entries e'.source).imp (fun hentries => ?_) ?_⟩
    · -- the entry is the only one of its source
      have hsame : (r.entered.store.listeners e'.source).entries = (r.session.store.listeners e'.source).entries := by
        rw [hsource, henters.listed_of_not (.inl (Observations.covers_iff.2 ⟨e, he, rfl⟩)), hstart]
      rw [hentries, hsame]
      refine List.filter_congr fun l _ => decide_eq_decide.2 ⟨fun hall => (hall e' hmem rfl).symm, fun hne d hd hd' => ?_⟩
      obtain rfl := o.eq_of_source (hstale.1 hd).1 he' hd'
      exact hne.symm
    · rintro ⟨p, hp, -, hnone⟩
      exact ⟨p, hp, hnone⟩
  case others =>
    intro z hnot hread
    rw [hbefore] at hnot
    have hz : ∀ c ∈ r.reads, sourceOf c ≠ z := fun c hc hsource => hread ⟨c, hc, hsource⟩
    refine (hreleases.listed_of_not ?_).trans ((henters.listed_of_not (.inr hz)).trans (hstart z))
    rintro e he rfl
    refine (henters.covers_iff.1 (Observations.covers_iff.2 ⟨e, (hstale.1 he).1, rfl⟩)).elim hnot ?_
    rintro ⟨c, hc, hsource⟩
    exact hz c hc hsource
  case destroyed =>
    intro p hbefore hafter
    refine hreleases.left ?_ hafter
    rw [henters.listed, hstart]
    exact List.append_ne_nil_of_left_ne_nil hbefore _

/-- What a binding observed that is unbound is released. -/
theorem releases_unbind (hx : s.bindings.get? b = some x) (hidle : x.isBound = false → x.observations.entries = []) :
    Releases x.observations.entries s (s.unbind b) := by
  unfold Session.unbind
  simp only [hx]
  split
  · have hstate : (s.modifyBinding b fun x => { x with state := none }).bindings.get? b =
        some { x with state := none } := by
      rw [get?_modifyBinding, if_pos rfl, hx, Option.map_some]
    exact (releases_clearObservations hstate).of_stores
  next hbound =>
    rw [hidle (by simpa using hbound)]
    exact .nil

/-- A round for which a binding is bound begins with an empty record, and what the binding observed before is released. -/
theorem releases_of_bind (hidle : Resting t) (hr : t.bindRound? d = some r) :
    (r.session.recordOf r.id).entries = [] ∧ Releases (t.recordOf r.id).entries t r.session := by
  obtain ⟨binding, scope, host, -, hb, -, -, -, hsession⟩ := bindRound?_eq_some hr
  have hx := get?_of_binding? hb
  rw [hsession, recordOf_of_get? (get?_boundTo hx _), recordOf_of_get? hx]
  constructor
  · unfold Binding.unbound
    split
    · rfl
    next hbound =>
      have hrest : r.binding.isBound = false := by simpa using hbound
      exact hidle r.id r.binding hx hrest
  · exact (releases_unbind hx (hidle _ _ hx)).of_stores

/-- A round that comes to a value leaves an exact record, which is that of the binding after the act. If the binding was
bound, it has released before what it observed then. -/
theorem exactRecord_play (as : List Act) {a : Act} {r : Round} {v : Value} (hr : (initial.play as).round? a = some r)
    (hv : r.result = .ok v) (hn : rounds as r.id < UInt64.size) :
    ExactRecord r ∧ (initial.play (as ++ [a])).recordOf r.id = r.cleared.recordOf r.id ∧
      ∀ t d, (initial.play as).carriedOut? a = some (t, d) →
        (r.session.recordOf r.id).entries = [] ∧ Releases (t.recordOf r.id).entries t r.session := by
  have hsound := sound_initial.play as
  have hdated := dated_play as
  have hplay : initial.play (as ++ [a]) = (initial.play as).act a := play_append ..
  rw [hplay]
  rcases round?_eq_some hr with htold | ⟨t, d, hc, hbind⟩
  · have hready := ready_of_told hsound hdated htold
    obtain ⟨w, new, previous, ls, rest, rfl, hp, -, hw, -⟩ := toldRound?_eq_some htold
    obtain ⟨o, added, ho, -⟩ := hready.enters
    refine ⟨hready.exactRecord fun e he => (counts_play as hw).version_ne hn he, ?_, fun t d hc => ?_⟩
    · rw [recordOf_of_get? (get?_act_of_toldRound htold ho), hv]
      exact (recordOf_of_get? (get?_clearStale ho)).symm
    · rw [toldRound?_eq_none hc] at htold
      cases htold
  · obtain ⟨binding, scope, host, -, hb, -⟩ := bindRound?_eq_some hbind
    have ht := sound_carriedOut? hsound hc
    have hresting : Resting t := by
      obtain ⟨ts, us, rfl, -⟩ := eq_of_carriedOut? hc
      exact resting_play as
    have hdated' : Dated t := by
      obtain ⟨ts, us, rfl, -⟩ := eq_of_carriedOut? hc
      exact hdated
    have hw : (initial.play as).bindings.get? r.id = some r.binding := by
      obtain ⟨ts, us, rfl, -⟩ := eq_of_carriedOut? hc
      exact get?_of_binding? hb
    have hready := ready_of_bind ht hdated' hbind
    obtain ⟨o, added, ho, -⟩ := hready.enters
    refine ⟨hready.exactRecord fun e he => ?_, ?_, fun t' d' hc' => ?_⟩
    · exact (counts_play as hw).unbound.version_ne hn he
    · rw [recordOf_of_get? (get?_act_of_bindRound hc hbind ho), hv]
      exact (recordOf_of_get? (get?_clearStale ho)).symm
    · obtain ⟨rfl, rfl⟩ := Prod.mk.inj (Option.some.inj (hc.symm.trans hc'))
      exact releases_of_bind hresting hbind

/-- A conditional that is told that its condition has changed takes the other branch, and lets the first one go. -/
theorem exactRecord_play_conditional :
    let as : List Act := [
      .command (.makeObject "model" [("ok", .bool true), ("name", .text "Ann"), ("other", .text "Bo")]),
      .command (.makeObject "target" []), .command (.makeScope "scope" "model" none none),
      .command (.makeBinding "b" "main"
        (.ok (.conditional (.scope "ok" 0 false) (.scope "name" 0 false) (.scope "other" 0 false))) "target" "value" {}),
      .command (.bind "b" "scope" none), .step, .step, .command (.set "model" "ok" (.bool false))]
    ∃ r, (initial.play as).round? .step = some r ∧ rounds as r.id = 1 ∧ ExactRecord r ∧
      ((initial.play (as ++ [.step])).recordOf r.id).entries.map Observation.source =
        [.property ⟨1⟩ "ok", .property ⟨1⟩ "other"] := by
  intro as
  have hround : ((initial.play as).round? .step).isSome = true := by decide +kernel
  have hfacts : ((initial.play as).round? .step).all (fun r => r.result.isOk ∧ rounds as r.id = 1 ∧
      ((initial.play (as ++ [.step])).recordOf r.id).entries.map Observation.source =
        [.property ⟨1⟩ "ok", .property ⟨1⟩ "other"]) = true := by decide +kernel
  obtain ⟨r, hr⟩ := Option.isSome_iff_exists.1 hround
  rw [hr, Option.all_some, decide_eq_true_iff] at hfacts
  obtain ⟨hok, hone, hsources⟩ := hfacts
  obtain ⟨v, hv⟩ : ∃ v, r.result = .ok v := by
    cases hresult : r.result with
    | ok v => exact ⟨v, rfl⟩
    | error e =>
      rw [hresult] at hok
      cases hok
  exact ⟨r, hr, hone, (exactRecord_play as hr hv (by rw [hone]; decide)).1, hsources⟩

end Session

end DataBinding
