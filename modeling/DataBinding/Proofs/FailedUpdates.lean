import DataBinding.Proofs.ExactRecords
import DataBinding.Proofs.Heeds.Execute
import DataBinding.Proofs.LastErrors
import DataBinding.Proofs.Shutdown

/-!
# Updates that fail

A binding that is told of a change and has no value any more keeps what it had: it stays bound, it goes on observing
what it observed, and what it has read until then it observes as well (`LosesNothing`). So it is told again when one of
these changes (`recovers_play`), as long as it is still registered with it. That it is may only be taken away by the
host, which may release a registration with a token that was given out again.
-/

namespace DataBinding

open Session (recordOf)

/-- A round has failed, between two sessions, and nothing is lost by it. -/
structure LosesNothing (r : Round) (e : ExpressionError) (s t : Session) : Prop where
  /-- The binding shows the failure, and otherwise stays as it is but for its record. -/
  binding : ∃ o, t.bindings.get? r.id = some { r.binding with observations := o, lastError := some (.expression e) }
  others {c : BindingId} : r.id ≠ c → t.bindings.get? c = s.bindings.get? c
  property {o : ObjectId} (n : String) : s.store.Knows (.object o) → t.store.property o n = s.store.property o n
  live {o : ObserverId} : s.store.isLive o = true → t.store.isLive o = true
  /-- What was recorded before keeps its token. -/
  kept {d : Observation} : d ∈ (s.recordOf r.id).entries →
    ∃ d' ∈ (t.recordOf r.id).entries, d'.source = d.source ∧ d'.token = d.token
  covers_iff (z : Source) : (t.recordOf r.id).covers z = true ↔ (s.recordOf r.id).covers z = true ∨ r.HasRead z
  /-- What was not recorded before gets one registration, after all others. -/
  added {d : Observation} : d ∈ (t.recordOf r.id).entries → ¬(s.recordOf r.id).covers d.source = true →
    (t.store.listeners d.source).entries = (s.store.listeners d.source).entries ++ [(d.token, .binding r.id)]
  /-- All other registrations are the same. -/
  listed {z : Source} : (s.recordOf r.id).covers z = true ∨ ¬r.HasRead z →
    (t.store.listeners z).entries = (s.store.listeners z).entries

namespace Session

variable {s t : Session} {a c : Act} {as bs : List Act} {b : BindingId} {d : Observation} {r : Round} {x : Binding}
  {z : Source} {n : Nat} {e : ExpressionError}

/-! ### What a round leaves that fails -/

theorem losesNothing_act (h : Sound (· ∈ s.held) s) (hd : Dated s) (hr : s.toldRound? a = some r) (he : r.result = .error e) :
    LosesNothing r e s (s.act a) := by
  have hready := ready_of_told h hd hr
  obtain ⟨w, new, previous, ls, rest, rfl, hp, hsession, hx, hy⟩ := toldRound?_eq_some hr
  obtain ⟨o, added, ho, henters⟩ := hready.enters
  have hstore : (s.act .step).store = r.entered.store := by
    rw [act_of_toldRound hr, he]
    rfl
  have hbefore : s.recordOf r.id = r.binding.observations := recordOf_of_get? hx
  have hbinding : (s.act .step).bindings.get? r.id =
      some { r.binding with observations := o, lastError := some (.expression e) } := by
    rw [get?_act_of_toldRound hr ho, he]
    rfl
  have hafter : (s.act .step).recordOf r.id = o := recordOf_of_get? hbinding
  have hspares : s.store.Spares r.evaluated.store := by
    have hspares := hready.spares
    rwa [hsession] at hspares
  constructor
  case binding => exact ⟨o, hbinding⟩
  case others =>
    intro c hc
    have hread : r.entered.bindings.get? c = r.session.bindings.get? c :=
      get?_readAgain_of_ne hc r.session r.binding r.bound
    rw [act_of_toldRound hr, he]
    simp only [afterRefresh, push]
    rw [get?_modifyBinding_of_ne hc, hread, hsession]
  case property =>
    intro p n hp
    rw [hstore]
    simp only [Store.property, Object.get, henters.properties]
    simp only [Store.object, hspares.objects hp]
  case live =>
    intro p hp
    rw [hstore, henters.live]
    exact hspares.isLive hp
  case kept =>
    intro d hd
    rw [hbefore] at hd
    rw [hafter]
    exact henters.exists_kept hd
  case covers_iff =>
    intro z
    rw [hafter, hbefore]
    exact henters.covers_iff
  case added =>
    intro d hd hnot
    rw [hafter] at hd
    rw [hbefore] at hnot
    rw [hstore, henters.listed_of_added (henters.mem_added hd hnot), hspares.listeners]
  case listed =>
    intro z hz
    rw [hbefore] at hz
    rw [hstore, henters.listed_of_not (hz.imp_right fun hnot d hd hsource => hnot ⟨d, hd, hsource⟩), hspares.listeners]

/-! ### What changes is told to whoever is registered -/

/-- A binding that is registered with a source when it changes is going to be told. -/
theorem exists_awaits_of_changes (h : Sound (· ∈ s.held) s) (hsource : ∃ r, sourceOf r = z)
    (hold : ∀ w ∈ sharedInSource z, w.number < s.store.fresh) (hchanges : s.changes z a ≠ [])
    (hl : (n, .binding b) ∈ ((s.act a).store.listeners z).entries) : ∃ t ∈ (s.act a).pending, t.Awaits b := by
  have hmem : .binding b ∈ ((s.act a).store.listeners z).audience := List.mem_map.2 ⟨_, hl, rfl⟩
  suffices hstarted : ∃ new previous, .notify z new previous ((s.act a).store.listeners z).audience ∈ s.started a by
    obtain ⟨new, previous, hstarted⟩ := hstarted
    refine ⟨.notify z new previous ((s.act a).store.listeners z).audience, ?_, hmem⟩
    rw [pending_act h]
    exact List.mem_append_left _ hstarted
  cases z with
  | property p m =>
    have hp : s.IsOld (.property p m) := hold (.object p) List.mem_cons_self
    obtain ⟨u, -, ⟨hmum, -⟩ | ⟨ts, hts, -⟩⟩ := announces_act h hp (by simp) a _ rfl
    · exact absurd (changes_of_mum hmum) hchanges
    · have hts : s.started a = .notify (.property p m) _ u ((s.act a).store.listeners (.property p m)).audience :: ts := hts
      rw [hts]
      exact ⟨_, u, List.mem_cons_self⟩
  | observer o =>
    obtain ⟨t, ht, hchange⟩ : ∃ t ∈ s.started a, t.changes (.observer o) ≠ [] := by
      by_contra hnone
      refine hchanges (changes_of_mum fun t ht => ?_)
      by_contra hchange
      exact hnone ⟨t, ht, hchange⟩
    cases t with
    | notify w new previous ls =>
      obtain rfl : w = .observer o := by
        by_contra hw
        exact hchange (if_neg hw)
      obtain ⟨-, rfl, -⟩ := notify_started h ht
      exact ⟨new, previous, ht⟩
    | deliver | perform | report | keep | adopt => exact absurd rfl hchange
  | collection c =>
    obtain ⟨r, hr⟩ := hsource
    cases r <;> cases hr

/-- The binding is there and bound. -/
def isBound (s : Session) (b : BindingId) : Bool := (s.bindings.get? b).any Binding.isBound

theorem isBound_iff : s.isBound b = true ↔ ∃ x, s.bindings.get? b = some x ∧ x.isBound = true := Option.any_eq_true ..

/-- The binding is bound throughout the run. -/
def StaysBound (s : Session) (b : BindingId) (as : List Act) : Prop := ∀ bs, bs <+: as → (s.play bs).isBound b = true

theorem StaysBound.tail (h : s.StaysBound b (a :: as)) : (s.act a).StaysBound b as :=
  fun bs hbs => h (a :: bs) (List.cons_prefix_cons.2 ⟨rfl, hbs⟩)

theorem StaysBound.of_append (h : s.StaysBound b (as ++ bs)) : s.StaysBound b as ∧ (s.play as).StaysBound b bs :=
  ⟨fun cs hcs => h cs (hcs.trans (List.prefix_append ..)), fun cs hcs => by
    rw [← play_append]
    exact h (as ++ cs) ((List.prefix_append_right_inj as).2 hcs)⟩

/-- A bound binding that is going to be told of something has been evaluated anew by the time that all work is done. -/
theorem exists_reevaluation_of_awaits (h : Sound (· ∈ s.held) s) (hb : s.StaysBound b as)
    (hw : ∃ t ∈ s.pending, t.Awaits b) (hdone : (s.play as).pending = []) : ∃ v, (b, v) ∈ s.reevaluations as := by
  induction as generalizing s with
  | nil =>
    obtain ⟨t, ht, -⟩ := hw
    rw [show s.pending = [] from hdone] at ht
    cases ht
  | cons a as ih =>
    by_cases htold : ∃ r, s.toldRound? a = some r ∧ r.id = b
    · obtain ⟨r, hr, rfl⟩ := htold
      exact ⟨r.result, List.mem_append_left _ (by simp [hr])⟩
    · have hw' : ∃ t ∈ (s.act a).pending, t.Awaits b := by
        refine exists_awaits_of_not_next h ?_ hw
        rintro w new previous ls rest rfl hp
        obtain ⟨x, hx, hbound⟩ := isBound_iff.1 (hb [] List.nil_prefix)
        obtain ⟨y, hy⟩ := Option.isSome_iff_exists.1 hbound
        refine htold ⟨⟨{ s with pending := .notify w new previous ls :: rest }, b, x, y⟩, ?_, rfl⟩
        rw [toldRound?_notify hp]
        have hx' : ({ s with pending := .notify w new previous ls :: rest } : Session).bindings.get? b = some x := hx
        simp [refreshRound?, hx', hy]
      obtain ⟨v, hv⟩ := ih (h.act a) hb.tail hw' hdone
      exact ⟨v, List.mem_append_right _ hv⟩

/-! ### What is recorded stays recorded -/

/-- A binding that is bound before and after an act which does not evaluate it keeps its record. -/
theorem recordOf_act (h : Sound (· ∈ s.held) s) (hold : b.number < s.store.fresh)
    (hnone : ∀ v, s.evaluation? a ≠ some (b, v)) (hb : s.isBound b = true) (hb' : (s.act a).isBound b = true) :
    (s.act a).recordOf b = s.recordOf b := by
  obtain ⟨x, hx, -⟩ := isBound_iff.1 hb
  obtain ⟨w, hw, hbound⟩ := isBound_iff.1 hb'
  have hnot : ∀ r, s.round? a = some r → r.id ≠ b := by
    rintro r hr rfl
    exact hnone r.result (by rw [evaluation?_eq_round, hr]; rfl)
  rw [recordOf_of_get? hx, recordOf_of_get? hw]
  rcases get?_of_no_round h hnot hw with ⟨x', hx', rfl | rfl⟩ | ⟨hnew, -⟩
  · obtain rfl := Option.some.inj (hx.symm.trans hx')
    rfl
  · -- it cannot have been unbound
    unfold Binding.unbound at hbound ⊢
    split
    next hwas =>
      rw [if_pos hwas] at hbound
      cases hbound
    · rw [Option.some.inj (hx.symm.trans hx')]
  · exact absurd hold (Nat.not_lt.2 hnew)

/-- A binding that stays bound and is not evaluated keeps its record. -/
theorem recordOf_play (h : Sound (· ∈ s.held) s) (hold : b.number < s.store.fresh) (hb : s.StaysBound b as)
    (hnone : ∀ v, (b, v) ∉ s.evaluations as) : (s.play as).recordOf b = s.recordOf b := by
  induction as generalizing s with
  | nil => rfl
  | cons a as ih =>
    obtain ⟨g, hm⟩ := moves_act h (fun _ _ _ => False) a
    have hfirst : (s.act a).recordOf b = s.recordOf b := by
      refine recordOf_act h hold (fun v hv => hnone v ?_) (hb [] List.nil_prefix) (hb [a] (by simp))
      exact List.mem_append_left _ (by simp [hv])
    rw [← hfirst]
    exact ih (h.act a) (Nat.lt_of_lt_of_le hold (Moves.fresh_le hm)) hb.tail fun v hv =>
      hnone v (List.mem_append_right _ hv)

/-- Bindings record what they have read, and it is there. -/
theorem recorded_play (as : List Act) (hd : d ∈ ((initial.play as).recordOf b).entries) :
    (∃ r, sourceOf r = d.source) ∧ ∀ w ∈ sharedInSource d.source, w.number < (initial.play as).store.fresh := by
  cases hx : (initial.play as).bindings.get? b with
  | none =>
    rw [recordOf, hx] at hd
    cases hd
  | some x =>
    rw [recordOf_of_get? hx] at hd
    have hsound := sound_initial.play as
    have hheld := within_record.1 (within_binding.1 (hsound.outside.bindings hx)).2.2.1 d hd
    exact ⟨(counts_play as hx).read hd, fun w hw => hsound.old (hsound.known (hheld w hw))⟩

/-- The binding is registered with the source of the entry under the token of the entry. -/
def IsRegistered (s : Session) (b : BindingId) (d : Observation) : Prop :=
  (d.token, .binding b) ∈ (s.store.listeners d.source).entries

/-- What a binding has recorded it is registered with, if the host leaves it to bindings to listen. -/
theorem isRegistered_of_recorded (has : ∀ a ∈ as, a.defers false = true)
    (hd : d ∈ ((initial.play as).recordOf b).entries) : (initial.play as).IsRegistered b d := by
  have hbalanced : Balanced false (initial.play as) := (inOrder_initial.play has).balanced
  cases hx : (initial.play as).bindings.get? b with
  | none =>
    rw [recordOf, hx] at hd
    cases hd
  | some x =>
    rw [recordOf_of_get? hx] at hd
    exact (hbalanced.owes b).registered.2 ⟨b, rfl, .inl ⟨x, d, hx, hd, rfl, rfl⟩⟩

/-- After the run, the binding is told of the next change of whatever it has recorded: if it stays bound, it has been
evaluated anew by the time that all work is done. For that it has to be registered with the source still. It is, if it
has not been evaluated meanwhile and the host leaves it to bindings to listen. -/
def Recovers (as : List Act) (b : BindingId) : Prop :=
  ∀ bs c cs d, d ∈ ((initial.play as).recordOf b).entries → (initial.play as).StaysBound b (bs ++ c :: cs) →
    (initial.play (as ++ bs)).changes d.source c ≠ [] →
    ((∀ a ∈ as ++ bs ++ [c], a.defers false = true) ∧ (∀ v, (b, v) ∉ (initial.play as).evaluations (bs ++ [c])) ∨
      (initial.play (as ++ bs ++ [c])).IsRegistered b d) →
    (initial.play (as ++ bs ++ c :: cs)).pending = [] → ∃ v, (b, v) ∈ (initial.play (as ++ bs)).reevaluations (c :: cs)

theorem recovers_play (as : List Act) (b : BindingId) : Recovers as b := by
  intro bs c cs d hd hb hchanges hstands hdone
  have hsound := sound_initial.play (as ++ bs)
  obtain ⟨hsource, hold⟩ := recorded_play as hd
  obtain ⟨g, hm⟩ := moves_play (sound_initial.play as) (fun _ _ _ => False) bs
  have hfresh : (initial.play as).store.fresh ≤ (initial.play (as ++ bs)).store.fresh := by
    rw [play_append]
    exact Moves.fresh_le hm
  have hact : initial.play (as ++ bs ++ [c]) = (initial.play (as ++ bs)).act c := play_append ..
  have hregistered : (initial.play (as ++ bs ++ [c])).IsRegistered b d := by
    refine hstands.elim (fun ⟨has, hnone⟩ => isRegistered_of_recorded has ?_) id
    have hb' : (initial.play as).StaysBound b ((bs ++ [c]) ++ cs) := by rwa [List.append_assoc]
    obtain ⟨x, hx, -⟩ := isBound_iff.1 (hb [] List.nil_prefix)
    rw [List.append_assoc, play_append, recordOf_play (sound_initial.play as) (old_bindings_play as b x hx)
      hb'.of_append.1 hnone]
    exact hd
  have hw : ∃ t ∈ ((initial.play (as ++ bs)).act c).pending, t.Awaits b := by
    rw [hact] at hregistered
    exact exists_awaits_of_changes hsound hsource (fun w hw => Nat.lt_of_lt_of_le (hold w hw) hfresh) hchanges hregistered
  have hrest : ((initial.play (as ++ bs)).act c).StaysBound b cs := by
    have hafter := hb.of_append.2.tail
    rwa [← play_append] at hafter
  have hdone' : (((initial.play (as ++ bs)).act c).play cs).pending = [] := by
    rw [play_append] at hdone
    exact hdone
  obtain ⟨v, hv⟩ := exists_reevaluation_of_awaits (hsound.act c) hrest hw hdone'
  exact ⟨v, List.mem_append_right _ hv⟩

/-- A bound binding that is told of a change and fails loses nothing, and is told again when something next changes that
it has recorded before or then. -/
theorem failedUpdate_play (as : List Act) {a : Act} {r : Round} {e : ExpressionError}
    (hr : (initial.play as).toldRound? a = some r) (he : r.result = .error e) :
    LosesNothing r e (initial.play as) (initial.play (as ++ [a])) ∧ Recovers (as ++ [a]) r.id := by
  refine ⟨?_, recovers_play _ _⟩
  rw [play_append]
  exact losesNothing_act (sound_initial.play as) (dated_play as) hr he

/-- A conditional whose other branch has no value fails when its condition changes, and is told when it changes back. -/
theorem failedUpdate_play_conditional :
    let as : List Act := [.command (.makeObject "model" [("ok", .bool true), ("name", .text "Ann")]),
      .command (.makeObject "target" []), .command (.makeScope "scope" "model" none none),
      .command (.makeBinding "b" "main"
        (.ok (.conditional (.scope "ok" 0 false) (.scope "name" 0 false) (.callScope "fallback" [] 0))) "target" "value" {}),
      .command (.bind "b" "scope" none), .step, .step, .command (.set "model" "ok" (.bool false))]
    let c : Act := .command (.set "model" "ok" (.bool true))
    let cs : List Act := List.replicate 8 .step
    ∃ r e, (initial.play as).toldRound? .step = some r ∧ r.result = .error e ∧
      LosesNothing r e (initial.play as) (initial.play (as ++ [.step])) ∧
        ∃ v, (r.id, v) ∈ (initial.play (as ++ [.step])).reevaluations (c :: cs) := by
  intro as c cs
  have hround : ((initial.play as).toldRound? .step).any (fun r => r.id = ⟨5⟩ ∧ r.result.isOk = false) = true := by
    decide +kernel
  obtain ⟨r, hr, hfacts⟩ := (Option.any_eq_true ..).1 hround
  obtain ⟨hid, hfailed⟩ := of_decide_eq_true hfacts
  obtain ⟨e, he⟩ : ∃ e, r.result = .error e := by
    cases hresult : r.result with
    | ok v =>
      rw [hresult] at hfailed
      cases hfailed
    | error e => exact ⟨e, rfl⟩
  obtain ⟨hloses, hrecovers⟩ := failedUpdate_play as hr he
  refine ⟨r, e, hr, he, hloses, ?_⟩
  have hchanges : ((initial.play (as ++ [.step])).recordOf ⟨5⟩).entries.any (fun d =>
      !((initial.play (as ++ [.step])).changes d.source c).isEmpty) = true := by decide +kernel
  obtain ⟨d, hd, hchange⟩ := List.any_eq_true.1 hchanges
  have hbound : ∀ k < 10, ((initial.play (as ++ [.step])).play ((c :: cs).take k)).isBound ⟨5⟩ = true := by decide +kernel
  have hquiet : ((initial.play (as ++ [.step])).evaluations [c]).isEmpty = true := by decide +kernel
  have hdone : (initial.play (as ++ [.step] ++ c :: cs)).pending.isEmpty = true := by decide +kernel
  rw [hid] at hrecovers ⊢
  refine hrecovers [] c cs d hd (fun bs hbs => ?_) (fun hnil => ?_) (.inl ⟨by decide, fun v hv => ?_⟩)
    (List.isEmpty_iff.1 hdone)
  · rw [List.prefix_iff_eq_take.1 hbs]
    exact hbound bs.length (Nat.lt_succ_of_le hbs.length_le)
  · rw [List.append_nil] at hnil
    rw [hnil] at hchange
    cases hchange
  · rw [List.nil_append, List.isEmpty_iff.1 hquiet] at hv
    cases hv

/-- The host may release the registration of a binding with a token of its own that was given out again. Then the binding
is not told of the change after which it would have a value, though another listener is. -/
theorem not_told_after_failure :
    let as : List Act := [.command (.makeObject "model" [("ok", .bool true), ("name", .text "Ann")]),
      .command (.makeObject "target" []), .command (.makeScope "scope" "model" none none),
      .command (.makeBinding "b" "main"
        (.ok (.conditional (.scope "ok" 0 false) (.scope "name" 0 false) (.callScope "fallback" [] 0))) "target" "value" {}),
      .command (.makeRecorder "r" [] 0), .command (.listen (.property "model" "ok") "r" "t"),
      .command (.unlisten (.property "model" "ok") "t"), .command (.bind "b" "scope" none), .step, .step,
      .command (.listen (.property "model" "ok") "r" "t2"), .command (.set "model" "ok" (.bool false))]
    let bs : List Act := List.replicate 4 .step ++ [.command (.unlisten (.property "model" "ok") "t")]
    let cs : List Act := .command (.set "model" "ok" (.bool true)) :: List.replicate 4 .step
    ((initial.play as).toldRound? .step).any (fun r => r.id = ⟨5⟩ ∧ r.result.isOk = false) = true ∧
      ((initial.play (as ++ [.step])).recordOf ⟨5⟩).covers (.property ⟨1⟩ "ok") = true ∧
      (∀ ds, ds <+: bs ++ cs → ((initial.play (as ++ [.step])).play ds).isBound ⟨5⟩ = true) ∧
      ((initial.play (as ++ [.step] ++ bs)).changes (.property ⟨1⟩ "ok") (.command (.set "model" "ok" (.bool true)))).isEmpty =
        false ∧
      (initial.play (as ++ [.step] ++ bs)).log.length = 1 ∧ (initial.play (as ++ [.step] ++ bs ++ cs)).log.length = 2 ∧
      (initial.play (as ++ [.step] ++ bs ++ cs)).pending = [] ∧
      (initial.play (as ++ [.step] ++ bs)).evaluations cs = [] := by
  intro as bs cs
  have hbound : ∀ k < 11, ((initial.play (as ++ [.step])).play ((bs ++ cs).take k)).isBound ⟨5⟩ = true := by
    decide +kernel
  refine ⟨by decide +kernel, by decide +kernel, fun ds hds => ?_, by decide +kernel, by decide +kernel,
    by decide +kernel, List.isEmpty_iff.1 (by decide +kernel), List.isEmpty_iff.1 (by decide +kernel)⟩
  rw [List.prefix_iff_eq_take.1 hds]
  exact hbound ds.length (Nat.lt_succ_of_le hds.length_le)

end Session

end DataBinding
