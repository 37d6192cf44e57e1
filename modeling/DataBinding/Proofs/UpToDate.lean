import DataBinding.Proofs.Heeds.Execute
import DataBinding.Proofs.Orderly

/-!
# Targets are up to date

At every point of an orderly run, a bound binding whose last evaluation succeeded is going to be told of something that
has changed, or its target has the value that its expression has now (`keepsUp_play`). When all work is done nobody is
going to be told of anything, so all such targets are up to date (`upToDate_play`).

An act keeps this for two reasons. A binding that is evaluated observes all that was read, so that reading it again
gives the same (`InOrder.keepsUp_act`). A binding that is not evaluated is told of whatever changes in what it observes
(`InOrder.keepsUp_of_ne`).
-/

namespace DataBinding

namespace Session

variable {W : Source → Prop} {s₀ s t u u' : Session} {b c : BindingId} {x z : Binding} {y : Bound} {reads : List Read}
  {v : Value} {i : SystemId}

/-! ### What a binding has written -/

/-- The target of a bound binding has the value that its expression has. To evaluate it changes nothing, and reads what
the binding observes. -/
structure Current (s : Session) (x : Binding) (y : Bound) (v : Value) : Prop where
  again : ∃ reads, s.evaluateBound x y = (s, reads, .ok v) ∧ ∀ r ∈ reads, x.observations.covers (sourceOf r) = true
  written : s.store.property x.target x.property = v

/-- What a binding observes and is not told of goes on to give what it gave, through the same observers. -/
theorem HasRead.unchanged (h : HasRead i reads s) (hx : s.bindings.get? c = some x) (hl : s.Listed c)
    (hcovers : ∀ r ∈ reads, x.observations.covers (sourceOf r) = true) (hleaves : Leaves W s t c)
    (hnot : ∀ e ∈ x.observations.entries, ¬W e.source) {r : Read} (hr : r ∈ reads) :
    t.store.valueOf r = s.store.valueOf r ∧ ∀ j o, r = .stream j o → t.store.isLive o = true := by
  obtain ⟨e, he, hsource⟩ := Observations.covers_iff.1 (hcovers r hr)
  have hw := hnot e he
  cases r with
  | property p n =>
    have hsource : e.source = .property p n := hsource
    rw [hsource] at hw
    exact ⟨hleaves.property (h.knows hr) hw, fun _ _ heq => by cases heq⟩
  | stream j o =>
    have hsource : e.source = .observer o := hsource
    have hholds := hl x hx e he
    have hhas := (hleaves.kept hx he hholds).has
    rw [hsource] at hw hhas
    refine ⟨hleaves.cached hx he hholds hsource hw, fun j' o' heq => ?_⟩
    obtain ⟨rfl, rfl⟩ := Read.stream.inj heq
    exact hhas

/-- Streams in the value of something that a binding observes are held. -/
theorem Sound.held_valueOf (h : Sound (· ∈ s.held) s) (hx : s.bindings.get? c = some x) {r : Read}
    (hcovers : x.observations.covers (sourceOf r) = true) : Within (· ∈ s.held) (sharedIn (s.store.valueOf r)) := by
  cases r with
  | property p n =>
    obtain ⟨e, he, hsource⟩ := Observations.covers_iff.1 hcovers
    have hrecord := within_record.1 (within_binding.1 (h.outside.bindings hx)).2.2.1 e he
    have hsource : e.source = .property p n := hsource
    have hobject : Shared.object p ∈ s.held := hrecord _ (by simp [hsource, sharedInSource])
    exact Sound.property (g := s.bare) h hobject n
  | stream j o =>
    simp only [Store.valueOf, Eval.cached]
    cases ho : s.store.observers.get? o with
    | none => simp [Within, sharedIn]
    | some d => exact h.outside.observers ho

/-- A binding that nothing is kept from stays current. -/
theorem Current.leaves (h : Current s x y v) (hs : InOrder true s) (ht : Sound (· ∈ t.held) t)
    (hx : s.bindings.get? c = some x) (hy : x.state = some y) (hz : t.bindings.get? c = some z)
    (hout : z.outline = x.outline) (htracked : x.IsTracked) (hsystem : (s.systems.get? x.system).isSome)
    (hsystem' : (t.systems.get? x.system).isSome) (hfinds : y.Finds x.expression s.store t.store)
    (hleaves : Leaves W s t c) (hnot : ∀ e ∈ x.observations.entries, ¬W e.source)
    (hslot : t.store.property x.target x.property = s.store.property x.target x.property)
    (hentry : ∀ j o, s.systems.entryIn x.system j = some o → t.store.isLive o = true → t.isAlive j = true →
      t.systems.entryIn x.system j = some o) : Current t z y v := by
  obtain ⟨reads, hagain, hcovers⟩ := h.again
  have hevaluated : Evaluated s x y s reads v := evaluated_of_evaluateBound hs.tidy htracked hsystem hagain
  have hread := (hasRead_evaluateBound hs.sound hx hy x).1
  rw [hagain] at hread
  have hcovers' : ∀ r ∈ reads, z.observations.covers (sourceOf r) = true := by
    rw [Binding.observations_of_outline hout]
    exact hcovers
  have hsame : ∀ r ∈ reads, t.store.valueOf r = s.store.valueOf r ∧ ∀ j o, r = .stream j o → t.store.isLive o = true :=
    fun r hr => hread.unchanged hx (hs.balanced.listed c) hcovers hleaves hnot hr
  have hrereads : Rereads x.system reads s t := by
    refine ⟨fun hr => (hsame _ hr).1, fun {j o} hr => ?_, fun {j o} hr => (hsame _ hr).2 j o rfl⟩
    -- the stream is still in the value of something that was read, so its observer is still the registry's
    obtain ⟨r, hr', hj⟩ := hevaluated.sourced hr
    rw [← (hsame r hr').1] at hj
    have hheld := ht.held_valueOf hz (hcovers' r hr') _ hj
    exact hentry j o (hread.entry hr) ((hsame _ hr).2 j o rfl) (isAlive_iff.2 hheld)
  have hrequest : z.request = x.request := Binding.request_of_outline hout
  have hslots : z.target = x.target ∧ z.property = x.property := by
    have hsame := Binding.slot_of_request hrequest
    exact ⟨(Source.property.inj hsame).1, (Source.property.inj hsame).2⟩
  constructor
  case again =>
    refine ⟨reads, ?_, hcovers'⟩
    rw [evaluateBound_congr hrequest]
    exact hevaluated.again hsystem' hfinds hrereads
  case written =>
    rw [hslots.1, hslots.2, hslot]
    exact h.written

/-! ### What becomes of a binding that is evaluated -/

/-- From `s` to `u`, a binding has been evaluated, and has released what it does not read any more: it observes what was
read, and to read the same is to evaluate to the same. -/
structure Refreshed (s : Session) (b : BindingId) (x : Binding) (y : Bound) (reads : List Read) (v : Value) (u : Session) :
    Prop where
  record : ∃ w, u.bindings.get? b = some w ∧ w.request = x.request ∧ w.state = some y ∧
    ∀ r ∈ reads, w.observations.covers (sourceOf r) = true
  hasRead : HasRead x.system reads u
  systems {j : SystemId} : (s.systems.get? j).isSome → (u.systems.get? j).isSome
  property (p : ObjectId) (n : String) : x.IsTracked → u.store.property p n = s.store.property p n
  again {t : Session} : x.IsTracked → (t.systems.get? x.system).isSome → y.Finds x.expression s.store t.store →
    Rereads x.system reads u t → t.evaluateBound x y = (t, reads, .ok v)

/-- What was read is still there, with the same values, when what was not read any more has been released. -/
theorem Balanced.released (h : Balanced true t) (hget : t.bindings.get? b = some z)
    (hstamped : ∀ r ∈ reads, z.observations.Stamped (sourceOf r)) (hread : HasRead i reads t) :
    HasRead i reads (t.clearStale b) ∧ ∀ r ∈ reads, (t.clearStale b).store.valueOf r = t.store.valueOf r := by
  have hsteady := steady_clearStale t b
  have hself : Leaves (fun _ => False) (t.modifyBinding b fun x => { x with observations := x.observations.fresh })
      (t.clearStale b) b := .clearStale_self hget
  have hfresh : (t.modifyBinding b fun x => { x with observations := x.observations.fresh }).bindings.get? b =
      some { z with observations := z.observations.fresh } := by
    rw [get?_modifyBinding, if_pos rfl, hget, Option.map_some]
  have hlisted : (t.modifyBinding b fun x => { x with observations := x.observations.fresh }).Listed b :=
    listed_modifyBinding (h.listed b) fun x e he => ⟨e, (List.mem_filter.1 he).1, rfl, rfl⟩
  have hread' : HasRead i reads (t.modifyBinding b fun x => { x with observations := x.observations.fresh }) :=
    ⟨hread.knows, hread.entry, hread.live⟩
  have hsame := fun r (hr : r ∈ reads) => hread'.unchanged hfresh hlisted
    (fun d hd => Observations.covers_fresh (hstamped d hd)) hself (fun _ _ => id) hr
  refine ⟨⟨fun hr => hsteady.knows (hread.knows hr), fun hr => ?_, fun hr => (hsame _ hr).2 _ _ rfl⟩,
    fun r hr => (hsame r hr).1⟩
  rw [hsteady.systems]
  exact hread.entry hr

theorem Balanced.refreshed (h : Balanced true s) (hs : Sound (· ∈ s.held) s) (hd : Dated s)
    (hz : s.bindings.get? b = some z) (hy : z.state = some y) (hrequest : z.request = x.request)
    (hsystem : (s.systems.get? x.system).isSome) (ht : s.readAgain b x y = (t, .ok v)) :
    ∃ reads, Refreshed s b x y reads v (t.clearStale b) := by
  have hbalanced := h.readAgain hs hd hz hy x
  rw [ht] at hbalanced
  obtain ⟨hread, hkept⟩ := hasRead_evaluateBound (hs.nextRound b) (get?_nextRound hz) hy x
  have hget := get?_evaluateBound hz x y
  have htidy := hs.tidy_nextRound hd b
  have hstore : (s.nextRound b).store = s.store := rfl
  have hsystems : (s.nextRound b).systems = s.systems := rfl
  rw [readAgain_eq] at ht
  rw [← hsystems] at hsystem
  generalize s.nextRound b = s₀ at *
  cases heval : s₀.evaluateBound x y with
  | mk s₁ r =>
    obtain ⟨reads, result⟩ := r
    rw [heval] at hread hkept hget ht
    obtain ⟨rfl, rfl⟩ := Prod.mk.inj ht
    obtain ⟨hresembles, hobserved, r, hr, hstamped, -⟩ := observed_observe hread.readable hget
    have hread' : HasRead x.system reads (s₁.observe b reads) := by
      refine ⟨fun hd => hresembles.knows (hread.knows hd), fun hd => ?_, fun hd => (hresembles.live _).trans (hread.live hd)⟩
      rw [hobserved]
      exact hread.entry hd
    -- all that was read is stamped with the new round, so nothing of it is released
    obtain ⟨hreleased, hvalues⟩ := hbalanced.released hr hstamped hread'
    have hsteady := steady_clearStale (s₁.observe b reads) b
    have hevaluated (htracked : x.IsTracked) : Evaluated s₀ x y s₁ reads v :=
      evaluated_of_evaluateBound htidy htracked hsystem heval
    refine ⟨reads, ?_⟩
    constructor
    case record =>
      exact ⟨_, get?_clearStale hr, hrequest, hy, fun d hd => Observations.covers_fresh (hstamped d hd)⟩
    case hasRead => exact hreleased
    case systems =>
      intro j hj
      rw [hsteady.systems, hobserved]
      rw [← hsystems] at hj
      exact hkept j hj
    case property =>
      intro p n htracked
      rw [← hstore]
      simp only [Store.property, Object.get, hsteady.properties, hresembles.properties]
      simp only [Store.object, (hevaluated htracked).objects]
    case again =>
      intro t' htracked hsome hfinds hrereads
      rw [← hstore] at hfinds
      refine (hevaluated htracked).again hsome hfinds ⟨fun {d} hd => ?_, hrereads.entry, hrereads.live⟩
      refine (hrereads.value hd).trans ((hvalues d hd).trans ?_)
      cases d with
      | property p n => simp only [Store.valueOf, Store.property, Object.get, hresembles.properties]
      | stream j o => exact hresembles.cached o

/-! ### Keeping up -/

/-- The binding, if it is bound, is going to be told of something, or it has written the value that its expression
has. -/
def KeepsUp (s : Session) (b : BindingId) (v : Value) : Prop :=
  ∀ x y, s.bindings.get? b = some x → x.state = some y → (∃ t ∈ s.pending, t.Awaits b) ∨ Current s x y v

/-- A binding that has been evaluated and is not told of anything since then evaluates to the same again. -/
theorem Refreshed.evaluateBound (h : Refreshed s b x y reads v u) (hu : Balanced true u) (htracked : x.IsTracked)
    (hz : u.bindings.get? b = some z) (hcovers : ∀ r ∈ reads, z.observations.covers (sourceOf r) = true)
    (hleaves : Leaves W u t b) (hnot : ∀ e ∈ z.observations.entries, ¬W e.source) (hsystems : t.systems = u.systems)
    (hsystem : (u.systems.get? x.system).isSome) (hfinds : y.Finds x.expression s.store t.store) :
    t.evaluateBound x y = (t, reads, .ok v) := by
  have hsame := fun r (hr : r ∈ reads) => h.hasRead.unchanged hz (hu.listed b) hcovers hleaves hnot hr
  refine h.again htracked ?_ hfinds ⟨fun hr => (hsame _ hr).1, fun hr => ?_, fun hr => (hsame _ hr).2 _ _ rfl⟩
  · rwa [hsystems]
  · rw [hsystems]
    exact h.hasRead.entry hr

/-- A binding that has been evaluated writes its slot, and is told if it observes it. -/
theorem Refreshed.keepsUp (h : Refreshed s b x y reads v u) (hsteady : Steady s₀ s) (hu : Balanced true u)
    (hsystem : (u.systems.get? x.system).isSome) (hleaves : Leaves (fun _ => False) u u' b)
    (hsystems : u'.systems = u.systems) {ts : List Task} (hts : ∀ t ∈ (u'.writeTarget b x v).tasks, t ∈ ts)
    (hd : Discernible s₀ { (u'.writeTarget b x v).session with pending := ts }) :
    KeepsUp { (u'.writeTarget b x v).session with pending := ts } b v := by
  have hvalue : Leaves (fun _ => False) u' (u'.modifyBinding b fun x => { x with value := v }) b :=
    .modifyBinding (.inr fun _ => rfl)
  replace hleaves := hleaves.trans hvalue
  replace hsystems : (u'.modifyBinding b fun x => { x with value := v }).systems = u.systems := hsystems
  unfold writeTarget at hts hd ⊢
  generalize (u'.modifyBinding b fun x => { x with value := v }) = u' at *
  obtain ⟨w, hw, hrequest, hstate, hcovers⟩ := h.record
  obtain ⟨w', hw', hout⟩ := hleaves.get? hw
  have hget : (u'.write x.target x.property v).session.bindings.get? b = some w' := by rw [bindings_write, hw']
  have hrequest' : w'.request = x.request := (Binding.request_of_outline hout).trans hrequest
  have hstate' : w'.state = some y := (congrArg Binding.state hout : w'.outline.state = w.outline.state).trans hstate
  obtain ⟨htarget, hproperty⟩ := Source.property.inj (Binding.slot_of_request hrequest')
  have hbound : w'.isBound = true := by simp [Binding.isBound, hstate']
  have htracked : x.IsTracked := (hd.tracked hget hbound).of_request hrequest'.symm
  -- what the binding observes has the value that it had before the evaluation
  have hbefore : ∀ p n, u.store.property p n = s₀.store.property p n := by
    intro p n
    rw [h.property p n htracked]
    simp only [Store.property, Object.get, hsteady.properties]
  have hexact : Exact b u (u'.write x.target x.property v).session := by
    intro z p n hz hcovers hequal
    obtain rfl := Option.some.inj (hw.symm.trans hz)
    rw [hbefore] at hequal ⊢
    refine hd.exact (.inr hget) ?_ hequal
    rwa [Binding.observations_of_outline hout]
  intro z y' hz hy'
  obtain rfl := Option.some.inj (hget.symm.trans hz)
  obtain rfl := Option.some.inj (hstate'.symm.trans hy')
  -- the slot may be among what the binding reads; then the binding is told of its own write
  rcases heeds_write hleaves (hu.listed b) hexact with hunbound | ⟨W, hwrite, hawaits⟩
  · rw [hunbound w' hget] at hbound
    cases hbound
  by_cases htold : ∃ t ∈ (u'.write x.target x.property v).tasks, t.Awaits b
  · obtain ⟨t, ht, htb⟩ := htold
    exact .inl ⟨t, hts t ht, htb⟩
  · have hall : Leaves W u { (u'.write x.target x.property v).session with pending := ts } b :=
      hwrite.trans (.of_store rfl rfl rfl rfl)
    have hnot : ∀ e ∈ w.observations.entries, ¬W e.source := fun e he hwe => htold (hawaits w e hw he hwe)
    have hsystems' : (u'.write x.target x.property v).session.systems = u.systems := by rw [systems_write, hsystems]
    have hfinds : y.Finds x.expression s.store (u'.write x.target x.property v).session.store := by
      have hfinds := hd.finds hget hstate'
      intro n k f hoccurs
      rw [hsteady.located]
      exact hfinds n k f (by rwa [Binding.expression_of_request hrequest'])
    have hagain := h.evaluateBound hu htracked hw hcovers hall hnot hsystems' hsystem hfinds
    refine .inr ⟨⟨reads, ?_, ?_⟩, ?_⟩
    · rwa [evaluateBound_congr hrequest']
    · rw [Binding.observations_of_outline hout]
      exact hcovers
    · rw [htarget, hproperty]
      exact property_write ..

theorem refresh_of_ok (hx : s.bindings.get? b = some x) (hy : x.state = some y) (h : s.readAgain b x y = (t, .ok v)) :
    s.refresh b = ((t.clearStale b).modifyBinding b fun x => { x with lastError := none }).writeTarget b x v := by
  simp only [refresh, hx, hy, h]

/-- A binding that is told of a change keeps up with it. -/
theorem InOrder.keepsUp_refresh (h : InOrder true s) (hserved : Served s) (he : s.refreshed? b = some (.ok v))
    {ts : List Task} (hts : ∀ t ∈ (s.refresh b).tasks, t ∈ ts)
    (hd : Discernible s { (s.refresh b).session with pending := ts }) :
    KeepsUp { (s.refresh b).session with pending := ts } b v := by
  obtain ⟨x, hx, he⟩ := Option.bind_eq_some_iff.1 he
  obtain ⟨y, hy, he⟩ := Option.bind_eq_some_iff.1 he
  cases ht : s.readAgain b x y with
  | mk t result =>
    rw [ht] at he
    obtain rfl : result = .ok v := Option.some.inj he
    have hread := h.balanced.readAgain h.sound h.dated hx hy x
    rw [ht] at hread
    obtain ⟨reads, hrefreshed⟩ := h.balanced.refreshed h.sound h.dated hx hy rfl (hserved b x hx) ht
    rw [refresh_of_ok hx hy ht] at hts hd ⊢
    have herror : Leaves (fun _ => False) (t.clearStale b)
        ((t.clearStale b).modifyBinding b fun x => { x with lastError := none }) b := .modifyBinding (.inr fun _ => rfl)
    exact hrefreshed.keepsUp .refl (hread.clearStale b) (hrefreshed.systems (hserved b x hx)) herror rfl hts hd

/-- A binding that is bound begins to keep up. -/
theorem InOrder.keepsUp_execute (h : InOrder true s) (hserved : Served s) {d : Command} (he : s.bound? d = some (b, .ok v))
    {ts : List Task} (hts : ∀ t ∈ (s.execute d).tasks, t ∈ ts)
    (hd : Discernible s { (s.execute d).session with pending := ts }) :
    KeepsUp { (s.execute d).session with pending := ts } b v := by
  unfold bound? at he
  split at he
  next binding scope host =>
    obtain ⟨⟨b', x⟩, hb, hrest⟩ := Option.bind_eq_some_iff.1 he
    obtain ⟨k, hk, hrest⟩ := Option.bind_eq_some_iff.1 hrest
    obtain ⟨k', hk', hr⟩ := Option.bind_eq_some_iff.1 hrest
    cases hnew : x.state.any fun z => z.scope.id = k.id with
    | true => simp [hnew] at hr
    | false =>
      simp only [hnew, Bool.false_eq_true, if_false, Option.pure_def, Option.some.injEq, Prod.mk.injEq] at hr
      obtain ⟨rfl, hr⟩ := hr
      have hx := get?_of_binding? hb
      obtain ⟨hbound, hs', hd', z, hz, hrequest, hy⟩ := h.balanced.boundTo h.sound h.dated hx
        (y := { scope := k, host := k' }) (h.sound.outside.scope hk) (h.sound.outside.host hk')
      have hsteady : Steady s (s.boundTo b' { scope := k, host := k' }) :=
        (steady_unbind s b').trans (steady_modifyBinding ..)
      have hsystem : ((s.boundTo b' { scope := k, host := k' }).systems.get? x.system).isSome := by
        rw [hsteady.systems]
        exact hserved b' x hx
      cases ht : (s.boundTo b' { scope := k, host := k' }).readAgain b' x { scope := k, host := k' } with
      | mk t result =>
        rw [ht] at hr
        obtain rfl : result = .ok v := hr
        have hread := hbound.readAgain hs' hd' hz hy x
        rw [ht] at hread
        obtain ⟨reads, hrefreshed⟩ := hbound.refreshed hs' hd' hz hy hrequest hsystem ht
        have hanswer : s.execute (.bind binding scope host) =
            (((t.clearStale b').writeTarget b' x v).andThen [.keep b'.ref]).answer .accepted := by
          simp [Session.execute, answer?, answerBind, hb, hk, hk', bind_of_ok hnew ht]
        rw [hanswer] at hts hd ⊢
        exact hrefreshed.keepsUp hsteady (hread.clearStale b') (hrefreshed.systems hsystem) .refl rfl
          (fun t ht => hts t (List.mem_append_left _ ht)) hd
  · cases he

/-- A binding that an act evaluates keeps up. -/
theorem InOrder.keepsUp_act (h : InOrder true s) (hserved : Served s) {a : Act} (he : s.evaluation? a = some (b, .ok v))
    (hd : Discernible s (s.act a)) : KeepsUp (s.act a) b v := by
  cases a with
  | command d => exact h.keepsUp_execute hserved he (fun t ht => List.mem_append_left _ ht) hd
  | step =>
    cases hp : s.pending with
    | nil => simp [evaluation?, carriedOut?, hp] at he
    | cons t rest =>
      have hleft : InOrder true { s with pending := t.left ++ rest } := h.left hp
      have hdefers : t.Defers true := h.pending (by simp [hp])
      have hserved' : Served { s with pending := t.left ++ rest } := hserved
      have hd' : Discernible { s with pending := t.left ++ rest } s.step := ⟨hd.tracked, hd.finds, hd.exact⟩
      rw [Session.act]
      cases t with
      | notify w new previous ls =>
        cases ls with
        | nil => simp [evaluation?, carriedOut?, hp] at he
        | cons l ls =>
          obtain ⟨b', rfl⟩ := hdefers l (List.mem_cons_self ..)
          rw [evaluation?_notify hp] at he
          obtain ⟨r, hr, he⟩ := Option.map_eq_some_iff.1 he
          obtain ⟨rfl, rfl⟩ := Prod.mk.inj he
          obtain ⟨x, hx, -⟩ := Option.bind_eq_some_iff.1 hr
          rw [step_of_notify hp hx] at hd' ⊢
          exact hleft.keepsUp_refresh hserved' hr (fun t ht => List.mem_append_left _ (List.mem_append_left _ ht)) hd'
      | deliver i e ks => cases ks <;> simp [evaluation?, carriedOut?, hp] at he
      | perform label ds =>
        cases ds with
        | nil => simp [evaluation?, carriedOut?, hp] at he
        | cons d ds =>
          rw [evaluation?_perform hp] at he
          have hstep : s.step = ({ s with pending := rest } : Session).doTask (.perform label (d :: ds)) := by
            simp only [step, hp]
          rw [hstep] at hd' ⊢
          exact hleft.keepsUp_execute hserved' he (fun t ht => List.mem_append_left _ (List.mem_append_left _ ht)) hd'
      | report | keep | adopt => simp [evaluation?, carriedOut?, hp] at he

/-- A binding that an act does not evaluate keeps up, for it is told of whatever it depends on. -/
theorem InOrder.keepsUp_of_ne (h : InOrder true s) (hserved : Served s) {a : Act} (ha : a.defers true = true)
    (hnot : ∀ r, s.evaluation? a ≠ some (b, r)) (hd : Discernible s (s.act a)) (hslots : s.KeepsSlots a)
    (hentry : ∀ i j o, s.systems.entryIn i j = some o → (s.act a).store.isLive o = true → (s.act a).isAlive j = true →
      (s.act a).systems.entryIn i j = some o) (hk : KeepsUp s b v) : KeepsUp (s.act a) b v := by
  intro z y hz hy
  have hbound : z.isBound = true := by simp [Binding.isBound, hy]
  have hexact : Exact b s (s.act a) := fun _ _ _ hx => hd.exact (.inl hx)
  -- a binding that is bound after the act was bound before it, to the same scopes and with the same record
  rcases h.heeds_act ha hnot hexact with hunbound | ⟨W, hleaves, hawaits⟩
  · rw [hunbound z hz] at hbound
    cases hbound
  obtain ⟨x, hx, hout⟩ : ∃ x, s.bindings.get? b = some x ∧ x.outline = z.outline := by
    have hsame := hleaves.same
    rw [hz] at hsame
    exact Option.map_eq_some_iff.1 hsame.symm
  have hrequest : z.request = x.request := Binding.request_of_outline hout.symm
  have hstate : x.outline.state = z.outline.state := congrArg Binding.state hout
  obtain ⟨htarget, hproperty⟩ := Source.property.inj (Binding.slot_of_request hrequest)
  have hy' : x.state = some y := hstate.trans hy
  rcases hk x y hx hy' with hw | hcurrent
  · have hbound' : x.isBound = true := by simp [Binding.isBound, hy']
    exact .inl (exists_awaits_act h.sound hnot hx hbound' hw)
  -- what changes among the things that the binding observes is reported to it; if nothing does, it stays current
  by_cases htold : ∃ e ∈ x.observations.entries, W e.source
  · obtain ⟨e, he, hwe⟩ := htold
    exact .inl (hawaits x e hx he hwe)
  · have hunchanged : ∀ e ∈ x.observations.entries, ¬W e.source := fun e he hwe => htold ⟨e, he, hwe⟩
    have htracked : x.IsTracked := (hd.tracked hz hbound).of_request hrequest.symm
    have hfinds : y.Finds x.expression s.store (s.act a).store := by
      rw [← Binding.expression_of_request hrequest]
      exact hd.finds hz hy
    have hslot := hslots b z hz hbound hnot
    rw [htarget, hproperty] at hslot
    have hsystem : ((s.act a).systems.get? z.system).isSome := hserved.act h.sound a b z hz
    rw [Binding.system_of_request hrequest] at hsystem
    exact .inr (hcurrent.leaves h (h.sound.act a) hx hy' hz hout.symm htracked (hserved b x hx) hsystem hfinds hleaves
      hunchanged hslot (hentry x.system))

/-! ### Runs -/

theorem served_play (as : List Act) : Served (initial.play as) := by
  induction as using List.reverseRecOn with
  | nil => exact served_initial
  | append_singleton as a ih =>
    rw [play_append]
    exact ih.act (sound_initial.play as) a

/-- Entries of registries stay while the observers and the streams are live. -/
theorem entryIn_act (as : List Act) (a : Act) {i : SystemId} {j : StreamId} {o : ObserverId}
    (ho : (initial.play as).systems.entryIn i j = some o) (hlive : (initial.play (as ++ [a])).store.isLive o = true)
    (hj : (initial.play (as ++ [a])).isAlive j = true) : (initial.play (as ++ [a])).systems.entryIn i j = some o := by
  obtain ⟨opened, hkept, hopened⟩ := exists_kept (as ++ [a])
  exact hkept.current (hopened i j o ⟨as, List.prefix_append .., ho⟩) hlive (isAlive_iff.1 hj)

/-- At every point of the run, a bound binding whose last evaluation succeeded is going to be told of a change, or its
target has the value that its expression has. -/
theorem keepsUp_play {as : List Act} (h : Orderly as) (hlast : lastEvaluation? as b = some (.ok v)) :
    KeepsUp (initial.play as) b v := by
  -- by induction on the end of the run, since the last act decides which evaluation was the last one
  induction as using List.reverseRecOn with
  | nil => cases hlast
  | append_singleton as a ih =>
    have hbefore : Orderly as := h.of_append
    have hin : InOrder true (initial.play as) := inOrder_initial.play hbefore.defers
    have hd := h.discernible (List.prefix_refl _)
    have hsplit : initial.play (as ++ [a]) = (initial.play as).act a := play_append ..
    have hentry := fun i j o => entryIn_act (i := i) (j := j) (o := o) as a
    rw [hsplit] at hd hentry ⊢
    by_cases he : ∃ r, (initial.play as).evaluation? a = some (b, r)
    · obtain ⟨r, he⟩ := he
      rw [lastEvaluation?_of_evaluation he] at hlast
      obtain rfl := Option.some.inj hlast
      exact hin.keepsUp_act (served_play as) he hd
    · have hnot : ∀ r, (initial.play as).evaluation? a ≠ some (b, r) := fun r hr => he ⟨r, hr⟩
      rw [lastEvaluation?_of_ne hnot] at hlast
      exact hin.keepsUp_of_ne (served_play as) (h.defers a (by simp)) hnot hd (h.slots (List.prefix_refl _)) hentry
        (ih hbefore hlast)

/-- When all work is done, the target of every bound binding whose last evaluation succeeded has exactly the value that
the expression has, read through the observers that there are. -/
theorem upToDate_play {as : List Act} (h : Orderly as) (hdone : (initial.play as).pending = [])
    (hx : (initial.play as).bindings.get? b = some x) (hy : x.state = some y)
    (hlast : lastEvaluation? as b = some (.ok v)) :
    ∃ reads, (initial.play as).evaluateBound x y =
      (initial.play as, reads, .ok ((initial.play as).store.property x.target x.property)) := by
  rcases keepsUp_play h hlast x y hx hy with ⟨t, ht, -⟩ | hcurrent
  · rw [hdone] at ht
    cases ht
  · obtain ⟨reads, hagain, -⟩ := hcurrent.again
    rw [hcurrent.written]
    exact ⟨reads, hagain⟩

/-- It is so of a sum of what a stream emits and a property, after both have changed. -/
theorem upToDate_play_sum :
    let as : List Act := [.command (.makeSubject "s" (some (.int 1))),
      .command (.makeObject "model" [("a$", .stream "s"), ("n", .int 2)]), .command (.makeObject "target" []),
      .command (.makeScope "scope" "model" none none),
      .command (.makeBinding "b" "main" (.ok (.binary .add (.streamScope "a$" 0 false) (.scope "n" 0 false))) "target" "x"
        {}),
      .command (.bind "b" "scope" none), .step, .step,
      .command (.next "s" (.int 3)), .step, .step, .step, .step, .step, .step, .step,
      .command (.set "model" "n" (.int 5)), .step, .step, .step, .step, .step]
    Orderly as ∧ (initial.play as).pending = [] ∧ ∃ x y v reads, (initial.play as).bindings.get? ⟨6⟩ = some x ∧
      x.state = some y ∧ lastEvaluation? as ⟨6⟩ = some (.ok v) ∧ (initial.play as).evaluateBound x y =
        (initial.play as, reads, .ok ((initial.play as).store.property x.target x.property)) := by
  intro as
  have horderly : Orderly as := orderly_of_isOrderly (by decide +kernel)
  have hdone : (initial.play as).pending = [] := List.isEmpty_iff.1 (by decide +kernel)
  have hbound : ((initial.play as).bindings.get? ⟨6⟩).any Binding.isBound = true := by decide +kernel
  have hok : (lastEvaluation? as ⟨6⟩).any Except.isOk = true := by decide +kernel
  obtain ⟨x, hx, hisBound⟩ := (Option.any_eq_true ..).1 hbound
  obtain ⟨y, hy⟩ := Option.isSome_iff_exists.1 hisBound
  obtain ⟨r, hlast, hisOk⟩ := (Option.any_eq_true ..).1 hok
  cases r with
  | error e => cases hisOk
  | ok v =>
    obtain ⟨reads, hagain⟩ := upToDate_play horderly hdone hx hy hlast
    exact ⟨horderly, hdone, x, y, v, reads, hx, hy, hlast, hagain⟩

end Session

end DataBinding
