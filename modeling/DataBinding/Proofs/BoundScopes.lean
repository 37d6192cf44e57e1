import DataBinding.Proofs.FailedBinds
import DataBinding.Proofs.FanOut
import DataBinding.Proofs.Unfailing

/-!
# Which scopes a bind puts in force

A bind that is accepted either finds the binding bound to the scope already, and then does nothing whatever host scope it
was given, or evaluates the expression in the scopes that it was given and writes what comes out. Listeners of the target
that are idle leave it at that (`exists_steps_notify`). From then on, until it is bound or unbound the next time, the
binding is evaluated in the scopes that it is bound to (`InForce`). So `bind_takes_effect` says when these are the scopes
that were given.
-/

namespace DataBinding

theorem Binding.state_refreshed (x : Binding) (result : Except ExpressionError Value) :
    (x.refreshed result).state = x.state := by
  cases result <;> rfl

instance (r : Reply) : Decidable (r = .accepted) :=
  decidable_of_iff ((match r with | .accepted => true | _ => false) = true) (by cases r <;> simp)

namespace Session

variable {s t u : Session} {a : Act} {as : List Act} {b c : BindingId} {d : Command} {r : Round} {x z : Binding}
  {y : Bound} {v : Value} {l : Listener} {rest : List Task}

/-! ### Until it is bound or unbound -/

/-- The act carries out no command that binds or unbinds the binding. -/
def LeavesBinding (b : BindingId) (s : Session) (a : Act) : Prop :=
  ∀ t d, s.carriedOut? a = some (t, d) → t.turnedBy? d ≠ some b

/-- The binding is bound to the scopes, if it is there. -/
def IsBoundTo (s : Session) (b : BindingId) (y : Bound) : Prop := ∀ x, s.bindings.get? b = some x → x.state = some y

theorem IsBoundTo.act (h : s.IsBoundTo b y) (hs : Sound (· ∈ s.held) s) (hold : b.number < s.store.fresh)
    (ha : LeavesBinding b s a) : (s.act a).IsBoundTo b y := by
  intro z hz
  by_cases hturn : s.turned? a = some b
  · cases hx : s.bindings.get? b with
    | none => exact absurd (hz.symm.trans (absent_act hturn hx)) nofun
    | some x =>
      obtain ⟨w, new, previous, ls, rest, rfl, hp⟩ | ⟨t, d, hc, hd⟩ := turned?_eq_some hturn
      · -- it is told of a change and evaluated where it is bound
        obtain ⟨o, ho⟩ := get?_readAgain_self (s := { s with pending := .notify w new previous ls :: rest }) hx x y
        have hrefreshed := get?_act_of_toldRound (toldRound?_of_state hp hx (h x hx)) ho
        obtain rfl := Option.some.inj (hz.symm.trans hrefreshed)
        rw [Binding.state_refreshed]
        exact h x hx
      · exact absurd hd (ha t d hc)
  · rcases untouched_act hs hturn z hz with hsame | ⟨hnew, -⟩
    · exact h z hsame
    · exact absurd hold (Nat.not_lt.2 hnew)

theorem IsBoundTo.play (h : s.IsBoundTo b y) (hs : Sound (· ∈ s.held) s) (hold : b.number < s.store.fresh)
    (has : AtEach (LeavesBinding b) s as) : (s.play as).IsBoundTo b y := by
  induction as generalizing s with
  | nil => exact h
  | cons a as ih =>
    exact ih (h.act hs hold has.1) (hs.act a) (Nat.lt_of_lt_of_le hold (fresh_le_act hs a)) has.2

/-- The binding is bound to the scopes. Until it is bound or unbound the next time, it stays bound to them and begins no
round but in them. -/
structure InForce (s : Session) (b : BindingId) (y : Bound) : Prop where
  bound : ∃ x, s.bindings.get? b = some x ∧ x.state = some y
  stays {as : List Act} : AtEach (LeavesBinding b) s as → (s.play as).IsBoundTo b y
  used {as : List Act} {a : Act} {r : Round} : AtEach (LeavesBinding b) s (as ++ [a]) → (s.play as).round? a = some r →
    r.id = b → r.bound = y

/-- The scopes are in force that a binding is bound to. -/
theorem inForce_play (as : List Act) (hx : (initial.play as).bindings.get? b = some x) (hy : x.state = some y) :
    (initial.play as).InForce b y := by
  have hbound : (initial.play as).IsBoundTo b y := by
    intro z hz
    obtain rfl := Option.some.inj (hx.symm.trans hz)
    exact hy
  have hstays : ∀ {bs}, AtEach (LeavesBinding b) (initial.play as) bs → ((initial.play as).play bs).IsBoundTo b y :=
    fun hbs => hbound.play (sound_initial.play as) (old_bindings_play as b x hx) hbs
  refine ⟨⟨x, hx, hy⟩, hstays, ?_⟩
  intro bs a r hbs hr hid
  obtain ⟨hbs, ha, -⟩ := atEach_append.1 hbs
  rcases round?_eq_some hr with htold | ⟨t, d, hc, hd⟩
  · obtain ⟨w, new, previous, ls, rest, -, -, -, hz, hstate⟩ := toldRound?_eq_some htold
    exact Option.some.inj (hstate.symm.trans (hstays hbs r.binding (hid ▸ hz)))
  · obtain ⟨binding, scope, host, rfl, hb, -⟩ := bindRound?_eq_some hd
    have hturned : t.turnedBy? (.bind binding scope host) = some b := by rw [turnedBy?, hb, Option.map_some, hid]
    exact absurd hturned (ha t _ hc)

theorem inForce_later (as bs : List Act) (hx : ((initial.play as).play bs).bindings.get? b = some x)
    (hy : x.state = some y) : ((initial.play as).play bs).InForce b y := by
  rw [← play_append] at hx ⊢
  exact inForce_play (as ++ bs) hx hy

/-! ### Idle listeners -/

/-- Whether a listener does nothing but write down what it is told: it has no actions left to carry out, or it is not
bound. -/
def isIdle (s : Session) : Listener → Bool
  | .binding c => (s.bindings.get? c).all fun x => !x.isBound
  | .recorder i => (s.recorders.get? i).all fun x => x.actions.isEmpty || x.limit = 0

/-- Between the sessions nothing has happened but that something was written down and that bindings have gone which were
not bound. -/
structure Idles (s t : Session) : Prop where
  store : t.store = s.store
  names : t.names = s.names
  recorders : t.recorders = s.recorders
  kept {c : BindingId} {x : Binding} : s.bindings.get? c = some x → x.isBound = true → t.bindings.get? c = some x
  left {c : BindingId} {x : Binding} : t.bindings.get? c = some x → s.bindings.get? c = some x

namespace Idles

theorem of_eq (hstore : t.store = s.store) (hnames : t.names = s.names) (hrecorders : t.recorders = s.recorders)
    (hbindings : t.bindings = s.bindings) : Idles s t where
  store := hstore
  names := hnames
  recorders := hrecorders
  kept hx _ := hbindings ▸ hx
  left hx := hbindings ▸ hx

theorem trans (h : Idles s t) (h' : Idles t u) : Idles s u where
  store := h'.store.trans h.store
  names := h'.names.trans h.names
  recorders := h'.recorders.trans h.recorders
  kept hx hbound := h'.kept (h.kept hx hbound) hbound
  left hx := h.left (h'.left hx)

theorem resting (h : Idles s t) (hs : Resting s) : Resting t := fun c x hx => hs c x (h.left hx)

theorem isIdle (h : Idles s t) (hl : s.isIdle l = true) : t.isIdle l = true := by
  cases l with
  | binding c =>
    rw [Session.isIdle, Option.all_eq_true] at hl ⊢
    exact fun x hx => hl x (h.left hx)
  | recorder i => rwa [Session.isIdle, h.recorders]

end Idles

/-- A binding that is not bound has nothing to release when it goes. -/
theorem idles_letGo (hs : Resting s) (hc : s.isIdle (.binding c) = true) :
    Idles s (s.letGo c.ref) ∧ (s.letGo c.ref).pending = s.pending := by
  by_cases hheld : s.isHeld c.ref = true
  · rw [letGo, if_pos hheld]
    exact ⟨.of_eq rfl rfl rfl rfl, rfl⟩
  · rw [letGo, if_neg hheld]
    cases hx : s.bindings.get? c with
    | none =>
      simp only [Id.ref, hx]
      exact ⟨.of_eq rfl rfl rfl rfl, trivial⟩
    | some x =>
      rw [isIdle, hx, Option.all_some, Bool.not_eq_true'] at hc
      simp only [Id.ref, hx, hs c x hx hc, releaseAll, List.foldl_nil]
      refine ⟨⟨rfl, rfl, rfl, ?_, ?_⟩, trivial⟩
      · intro c' z hz hbound
        have hne : c ≠ c' := by
          rintro rfl
          obtain rfl := Option.some.inj (hx.symm.trans hz)
          rw [hc] at hbound
          cases hbound
        rw [Table.get?_erase, if_neg hne]
        exact hz
      · intro c' z hz
        rw [Table.get?_erase] at hz
        split at hz
        · cases hz
        · exact hz

theorem play_replicate_add (s : Session) (a : Act) (m n : Nat) :
    s.play (List.replicate (m + n) a) = (s.play (List.replicate m a)).play (List.replicate n a) := by
  rw [List.replicate_add, play_append]

theorem play_replicate_one (s : Session) : s.play (List.replicate 1 .step) = s.step := rfl

/-- A listener that is idle is told, and the next one follows. -/
theorem exists_steps_tell {w : Source} {new previous : Value} {ls : List Listener} (hs : Resting s)
    (hp : s.pending = .notify w new previous (l :: ls) :: rest) (hl : s.isIdle l = true) :
    ∃ k, Idles s (s.play (List.replicate k .step)) ∧
      (s.play (List.replicate k .step)).pending = .notify w new previous ls :: rest := by
  cases hpresent : s.isPresent l with
  | false =>
    have hstep : s.step = { s with pending := .notify w new previous ls :: rest } := by
      simp only [step, hp, doTask]
      exact if_neg (by simpa [push, isPresent] using hpresent)
    refine ⟨1, ?_⟩
    rw [play_replicate_one, hstep]
    exact ⟨.of_eq rfl rfl rfl rfl, rfl⟩
  | true =>
    cases l with
    | recorder i =>
      obtain ⟨x, hx⟩ := Option.isSome_iff_exists.1 hpresent
      rw [isIdle, hx, Option.all_some] at hl
      have htell : ({ s with pending := .notify w new previous ls :: rest } : Session).tell new previous (.recorder i) =
          { session := ({ s with pending := .notify w new previous ls :: rest } : Session).note
              (.change x.label (s.view new) (s.view previous)) } := by
        simp only [tell, hx]
        exact if_pos hl
      have hstep : s.step = ({ s with pending := .notify w new previous ls :: rest } : Session).note
          (.change x.label (s.view new) (s.view previous)) := by
        simp only [step, hp, doTask]
        exact (if_pos hpresent).trans (congrArg (fun r => r.session.push r.tasks) htell)
      refine ⟨1, ?_⟩
      rw [play_replicate_one, hstep]
      exact ⟨.of_eq rfl rfl rfl rfl, rfl⟩
    | binding c =>
      obtain ⟨x, hx⟩ := Option.isSome_iff_exists.1 hpresent
      have hnone : ({ s with pending := .notify w new previous ls :: rest } : Session).refreshed? c = none := by
        rw [isIdle, hx, Option.all_some, Bool.not_eq_true', Binding.isBound, Option.isSome_eq_false_iff,
          Option.isNone_iff_eq_none] at hl
        simp [refreshed?, hx, hl]
      -- the binding is held while it is told, and may go when that is over
      have hstep : s.step = { s with pending := .keep c.ref :: .notify w new previous ls :: rest } := by
        rw [step_of_notify hp hx, refresh_of_none hnone]
        rfl
      obtain ⟨hidles, hpending⟩ := idles_letGo (s := { s with pending := .notify w new previous ls :: rest }) hs hl
      refine ⟨1 + 1, ?_⟩
      rw [play_replicate_add, play_replicate_one, play_replicate_one, hstep]
      exact ⟨⟨hidles.store, hidles.names, hidles.recorders, hidles.kept, hidles.left⟩, hpending⟩

/-- When all listeners of a source are idle, they are told of the change and nothing follows from it. -/
theorem exists_steps_notify {w : Source} {new previous : Value} {ls : List Listener} (hs : Resting s)
    (hp : s.pending = .notify w new previous ls :: rest) (hidle : ∀ l ∈ ls, s.isIdle l = true) :
    ∃ k, Idles s (s.play (List.replicate k .step)) ∧ (s.play (List.replicate k .step)).pending = rest := by
  induction ls generalizing s with
  | nil =>
    have hstep : s.step = { s with pending := rest } := by simp only [step, hp, doTask]
    refine ⟨1, ?_⟩
    rw [play_replicate_one, hstep]
    exact ⟨.of_eq rfl rfl rfl rfl, rfl⟩
  | cons l ls ih =>
    obtain ⟨hl, hidle⟩ := List.forall_mem_cons.1 hidle
    obtain ⟨m, htold, hleft⟩ := exists_steps_tell hs hp hl
    obtain ⟨n, hrest, hdone⟩ := ih (htold.resting hs) hleft fun l' hl' => htold.isIdle (hidle l' hl')
    exact ⟨m + n, by rw [play_replicate_add]; exact ⟨htold.trans hrest, hdone⟩⟩

/-! ### The end of a command -/

theorem act_of_carriedOut (h : s.carriedOut? a = some (t, d)) :
    ∃ us : List Task, (∀ t' ∈ us, ∃ label reply, t' = .report label reply) ∧
      s.act a = (t.execute d).session.push ((t.execute d).tasks ++ us) := by
  obtain ⟨rfl, rfl⟩ | ⟨label, ds, rest, rfl, hp, rfl⟩ := carriedOut?_eq_some h
  · exact ⟨[], by simp, by rw [List.append_nil]; rfl⟩
  · exact ⟨[.report label _], by simp, by simp only [act, step, hp, doTask]; rfl⟩

theorem isNamed_of_binding? {name : String} (h : s.binding? name = some (b, x)) : s.isNamed b.ref = true := by
  obtain ⟨c, hc, h⟩ := Option.bind_eq_some_iff.1 h
  obtain ⟨z, -, h⟩ := Option.bind_eq_some_iff.1 h
  obtain ⟨rfl, -⟩ := Prod.mk.inj (Option.some.inj h)
  obtain ⟨n, hn, rfl⟩ := Option.map_eq_some_iff.1 hc
  exact List.any_eq_true.2 ⟨_, Table.mem_entries.2 hn, by simp [Id.ref]⟩

/-- Replies are written down and nothing else happens. -/
theorem exists_steps_report {us : List Task} (hus : ∀ t' ∈ us, ∃ label reply, t' = Task.report label reply)
    (hp : s.pending = us ++ rest) : ∃ k log, s.play (List.replicate k .step) = { s with pending := rest, log } := by
  induction us generalizing s with
  | nil =>
    have hdone : s.pending = rest := hp
    exact ⟨0, s.log, by rw [← hdone]; rfl⟩
  | cons u us ih =>
    obtain ⟨hreport, hlater⟩ := List.forall_mem_cons.1 hus
    obtain ⟨label, reply, rfl⟩ := hreport
    have hstep : s.step = ({ s with pending := us ++ rest } : Session).note (.action label reply) := by
      rw [step, hp]
      rfl
    obtain ⟨k, log, hk⟩ := ih (s := s.step) hlater (by rw [hstep]; rfl)
    refine ⟨1 + k, log, ?_⟩
    rw [play_replicate_add, play_replicate_one, hk, hstep]
    rfl

/-- The last tasks of a command give up a hold on something that has a name, and write down the reply. -/
theorem exists_steps_end {ref : Ref} {us : List Task} (hnamed : s.isNamed ref = true)
    (hus : ∀ t' ∈ us, ∃ label reply, t' = Task.report label reply) (hp : s.pending = .keep ref :: (us ++ rest)) :
    ∃ k log, s.play (List.replicate k .step) = { s with pending := rest, log } := by
  have hheld : ({ s with pending := us ++ rest } : Session).isHeld ref = true := isHeld_of_isNamed hnamed
  have hstep : s.step = { s with pending := us ++ rest } := by
    simp only [step, hp, doTask]
    rw [letGo, if_pos hheld]
  obtain ⟨k, log, hk⟩ := exists_steps_report (s := s.step) hus (by rw [hstep])
  refine ⟨1 + k, log, ?_⟩
  rw [play_replicate_add, play_replicate_one, hk, hstep]

/-! ### A bind that is accepted -/

theorem names_write (s : Session) (p : ObjectId) (n : String) (v : Value) : (s.write p n v).session.names = s.names := by
  unfold write
  dsimp only
  split <;> rfl

/-- The target of the binding `x` holds the value that its expression has come to, and the scopes are in force. -/
structure Effective (b : BindingId) (x : Binding) (y : Bound) (v : Value) (s : Session) : Prop where
  property : s.store.property x.target x.property = v
  inForce : s.InForce b y

/-- What an accepted bind of `x` to the scopes `y` comes to that was carried out in `t` and has led to `u`. -/
structure TakesEffect (b : BindingId) (x : Binding) (y : Bound) (t u : Session) : Prop where
  /-- Where the binding was bound to the scope, nothing has changed when it is done, and what the binding was bound to
  stays in force. -/
  already {w : Bound} : x.state = some w → w.scope.id = y.scope.id →
    ∃ k log, u.play (List.replicate k .step) = { t with log } ∧ (u.play (List.replicate k .step)).InForce b w
  /-- Otherwise the target holds what the expression comes to in the scopes, and these are in force. If the listeners of
  the target are idle, that is still so when it is done. -/
  anew : (∀ w, x.state = some w → w.scope.id ≠ y.scope.id) →
    ∃ v, (((t.boundTo b y).nextRound b).evaluateBound x y).2.2 = .ok v ∧ Effective b x y v u ∧
      ((∀ l ∈ (u.store.listeners x.slot).audience, u.isIdle l = true) →
        ∃ k, (u.play (List.replicate k .step)).pending = t.pending ∧ Effective b x y v (u.play (List.replicate k .step)))

/-- A bind to the scope that the binding is bound to does nothing. -/
theorem takesEffect_of_bound (as : List Act) {binding scope : String} {host : Option String}
    (hc : (initial.play as).carriedOut? a = some (t, .bind binding scope host)) (hb : t.binding? binding = some (b, x))
    (hsame : (x.state.any fun z => z.scope.id = y.scope.id) = true)
    (hexecute : t.execute (.bind binding scope host) = { session := t, reply := .accepted, tasks := [.keep b.ref] }) :
    TakesEffect b x y t ((initial.play as).act a) where
  already {w} hw _ := by
    obtain ⟨us, hus, hact⟩ := act_of_carriedOut hc
    rw [hexecute] at hact
    have hnamed : ((initial.play as).act a).isNamed b.ref = true := by
      rw [hact]
      exact isNamed_of_binding? hb
    have hpending : ((initial.play as).act a).pending = .keep b.ref :: (us ++ t.pending) := by
      rw [hact]
      rfl
    obtain ⟨k, log, hk⟩ := exists_steps_end hnamed hus hpending
    have hend : ((initial.play as).act a).play (List.replicate k .step) = { t with log } := by
      rw [hk, hact]
      rfl
    have hget : (((initial.play as).act a).play (List.replicate k .step)).bindings.get? b = some x := by
      rw [hend]
      exact get?_of_binding? hb
    exact ⟨k, log, hend, inForce_later as (a :: List.replicate k .step) hget hw⟩
  anew hnew := by
    obtain ⟨w, hw, hid⟩ := (Option.any_eq_true ..).1 hsame
    exact absurd (by simpa using hid) (hnew w hw)

theorem names_execute_of_bindRound (hr : t.bindRound? d = some r) : (t.execute d).session.names = t.names := by
  obtain ⟨binding, scope, host, -, -, -, -, -, hsession⟩ := bindRound?_eq_some hr
  obtain ⟨store, systems, bindings, hentered⟩ := exists_entered_eq r
  have hnames : r.entered.names = t.names := by
    rw [hentered, ← (steady_boundTo t r.id r.bound).names, ← hsession]
  rw [execute_of_bindRound hr, Round.answer]
  cases r.result with
  | ok v => exact (names_write ..).trans ((steady_clearStale r.entered r.id).names.trans hnames)
  | error e => exact (steady_clearObservations ..).names.trans hnames

/-- A bind that has written leaves its target's listeners to be told, or nobody, and gives up its hold on the binding. -/
theorem tasks_execute_of_ok (hr : t.bindRound? d = some r) (hv : r.result = .ok v) :
    ∃ ts, (t.execute d).tasks = ts ++ [.keep r.id.ref] ∧ (ts = [] ∨ ∃ old, ts =
      [.notify r.binding.slot v old ((t.execute d).session.store.listeners r.binding.slot).audience]) := by
  have hanswer : t.execute d =
      (((r.entered.clearStale r.id).writeTarget r.id r.binding v).andThen [.keep r.id.ref]).answer .accepted := by
    rw [execute_of_bindRound hr, Round.answer, hv]
    rfl
  rw [hanswer]
  exact ⟨_, rfl, tasks_write ..⟩

/-- When a bind has written and the listeners of its target are idle, they are told first. -/
theorem exists_steps_told (as : List Act) (hc : (initial.play as).carriedOut? a = some (t, d))
    (hr : t.bindRound? d = some r) (hv : r.result = .ok v)
    (hidle : ∀ l ∈ (((initial.play as).act a).store.listeners r.binding.slot).audience,
      ((initial.play as).act a).isIdle l = true) :
    ∃ k us, (∀ t' ∈ us, ∃ label reply, t' = Task.report label reply) ∧
      Idles ((initial.play as).act a) (((initial.play as).act a).play (List.replicate k .step)) ∧
      (((initial.play as).act a).play (List.replicate k .step)).pending = .keep r.id.ref :: (us ++ t.pending) := by
  obtain ⟨us, hus, hact⟩ := act_of_carriedOut hc
  obtain ⟨ts, htasks, hts⟩ := tasks_execute_of_ok hr hv
  have hpending : ((initial.play as).act a).pending = ts ++ .keep r.id.ref :: (us ++ t.pending) := by
    rw [hact, push, htasks, pending_execute (sound_carriedOut? (sound_initial.play as) hc) d]
    simp only [List.append_assoc, List.cons_append, List.nil_append]
  rcases hts with rfl | ⟨old, rfl⟩
  · exact ⟨0, us, hus, .of_eq rfl rfl rfl rfl, hpending⟩
  · have hresting : Resting ((initial.play as).act a) := (resting_play as).act (sound_initial.play as) a
    have hstore : ((initial.play as).act a).store = (t.execute d).session.store := by rw [hact]; rfl
    rw [← hstore] at hpending
    obtain ⟨k, hidles, hdone⟩ := exists_steps_notify hresting hpending hidle
    exact ⟨k, us, hus, hidles, hdone⟩

/-- A bind to another scope writes what the expression comes to. -/
theorem effective_act (as : List Act) (hc : (initial.play as).carriedOut? a = some (t, d))
    (hr : t.bindRound? d = some r) (hv : r.result = .ok v) :
    Effective r.id r.binding r.bound v ((initial.play as).act a) := by
  have hbegins := begins_of_carriedOut hc hr
  constructor
  case property =>
    have hwrites : (initial.play as).targetWrite? a = some (r.id, v) := by
      rw [targetWrite?_eq_some, evaluation?_of_carriedOut hc, bound?_eq_bindRound, hr, Option.map_some, hv]
    obtain ⟨ts, us, rfl, -⟩ := eq_of_carriedOut? hc
    exact property_of_targetWrite hwrites hbegins.get?
  case inForce =>
    obtain ⟨o, ho, -⟩ := hbegins.enters
    have hx := get?_act_of_bindRound hc hr ho
    exact inForce_later as [a] hx (by rw [hv]; rfl)

/-- What has taken effect is still so when nothing but idle listeners were told. -/
theorem Effective.of_idles {bs : List Act} (h : Effective b x y v ((initial.play as).act a))
    (hidles : Idles ((initial.play as).act a) (((initial.play as).act a).play bs)) :
    Effective b x y v (((initial.play as).act a).play bs) := by
  obtain ⟨z, hz, hstate⟩ := h.inForce.bound
  have hkept := hidles.kept hz (by rw [Binding.isBound, hstate, Option.isSome_some])
  constructor
  case property => rw [hidles.store, h.property]
  case inForce => exact inForce_later as (a :: bs) hkept hstate

theorem takesEffect_of_ok (as : List Act) (hc : (initial.play as).carriedOut? a = some (t, d))
    (hr : t.bindRound? d = some r) (hv : r.result = .ok v) :
    TakesEffect r.id r.binding r.bound t ((initial.play as).act a) := by
  obtain ⟨binding, scope, host, rfl, hb, -, -, hnew, hsession⟩ := bindRound?_eq_some hr
  constructor
  case already =>
    intro w hw hid
    rw [hw, Option.any_some] at hnew
    exact absurd hid (by simpa using hnew)
  case anew =>
    intro _
    have hnow := effective_act as hc hr hv
    refine ⟨v, by rw [← hsession]; exact hv, hnow, fun hidle => ?_⟩
    -- the listeners are told, then the hold on the binding is given up, which its name keeps
    obtain ⟨m, us, hus, htold, hpending⟩ := exists_steps_told as hc hr hv hidle
    have hnamed : (((initial.play as).act a).play (List.replicate m .step)).isNamed r.id.ref = true := by
      obtain ⟨ts, us', -, hact⟩ := eq_of_carriedOut? hc
      have hnames : ((initial.play as).act a).names = t.names := by
        rw [hact]
        exact names_execute_of_bindRound hr
      rw [isNamed, htold.names, hnames]
      exact isNamed_of_binding? hb
    obtain ⟨n, log, hend⟩ := exists_steps_end hnamed hus hpending
    rw [← play_replicate_add] at hend
    have hidles : Idles ((initial.play as).act a) (((initial.play as).act a).play (List.replicate (m + n) .step)) := by
      rw [hend]
      exact htold.trans (.of_eq rfl rfl rfl rfl)
    exact ⟨m + n, by rw [hend], hnow.of_idles hidles⟩

/-- A bind that is accepted is one of a binding and scopes that have these names, and takes effect. -/
theorem bind_takes_effect (as : List Act) {a : Act} {t : Session} {binding scope : String} {host : Option String}
    (hc : (initial.play as).carriedOut? a = some (t, .bind binding scope host))
    (haccepted : (t.execute (.bind binding scope host)).reply = .accepted) :
    ∃ (b : BindingId) (x : Binding) (y : Bound), t.binding? binding = some (b, x) ∧ t.scope? scope = some y.scope ∧
      t.host? host = some y.host ∧ TakesEffect b x y t ((initial.play as).act a) := by
  obtain hunknown | ⟨b, x, y, hb, hy, hhost, hsame, hexecute⟩ | ⟨r, hr⟩ := execute_bind t binding scope host
  · rw [hunknown] at haccepted
    cases haccepted
  · exact ⟨b, x, y, hb, hy, hhost, takesEffect_of_bound as hc hb hsame hexecute⟩
  · have hanswer := execute_of_bindRound hr
    cases hresult : r.result with
    | error e =>
      rw [hanswer, Round.answer, hresult] at haccepted
      cases haccepted
    | ok v =>
      obtain ⟨binding', scope', host', hd, hb, hy, hhost, -⟩ := bindRound?_eq_some hr
      obtain ⟨rfl, rfl, rfl⟩ := Command.bind.inj hd
      exact ⟨r.id, r.binding, r.bound, hb, hy, hhost, takesEffect_of_ok as hc hr hresult⟩

/-- A binding that was bound to another scope is bound to one that leaves the name to the host scope. A listener of the
target writes the change down. -/
theorem bind_takes_effect_heard :
    let as : List Act := [.command (.makeObject "model" [("name", .text "Ann")]), .command (.makeObject "model2" []),
      .command (.makeObject "hostModel" [("name", .text "Eve")]), .command (.makeObject "target" []),
      .command (.makeScope "scope" "model" none none), .command (.makeScope "scope2" "model2" none none),
      .command (.makeScope "host" "hostModel" none none), .command (.makeRecorder "r" [] 1),
      .command (.makeBinding "b" "main" (.ok (.scope "name" 0 false)) "target" "value" {}),
      .command (.listen (.property "target" "value") "r" "token"), .command (.bind "b" "scope" none), .step, .step, .step]
    let t := initial.play as
    let u := t.act (.command (.bind "b" "scope2" (some "host")))
    ∃ b x y, t.binding? "b" = some (b, x) ∧ x.isBound = true ∧ TakesEffect b x y t u ∧
      ∃ k, (u.play (List.replicate k .step)).InForce b y ∧
        ((u.play (List.replicate k .step)).store.property x.target x.property).display = "Eve" := by
  intro as t u
  have hfacts : (t.execute (.bind "b" "scope2" (some "host"))).reply = .accepted ∧
      (t.binding? "b").all (fun p => p.2.isBound ∧ (u.store.property p.2.target p.2.property).display = "Eve" ∧
        (u.store.listeners p.2.slot).audience.all u.isIdle) = true ∧
      (t.binding? "b").all (fun p => p.2.state.all fun w =>
        (t.scope? "scope2").all fun y => w.scope.id ≠ y.id) = true := by decide +kernel
  obtain ⟨haccepted, hbinding, hother⟩ := hfacts
  obtain ⟨b, x, y, hb, hy, -, heffect⟩ :=
    bind_takes_effect as (a := .command (.bind "b" "scope2" (some "host"))) rfl haccepted
  rw [hb, Option.all_some] at hbinding hother
  rw [hy] at hother
  obtain ⟨hbound, heve, hidle⟩ := of_decide_eq_true hbinding
  obtain ⟨v, -, hnow, hdone⟩ := heffect.anew fun w hw => by simpa [hw] using hother
  obtain ⟨k, -, hthen⟩ := hdone (List.all_eq_true.1 hidle)
  refine ⟨b, x, y, hb, hbound, heffect, k, hthen.inForce, ?_⟩
  rw [hthen.property, ← hnow.property]
  exact heve

/-- A binding is bound to the scope that it is bound to, but to a host scope that has the name. That is accepted, but
neither is the name looked up there nor is the host scope in force. -/
theorem bind_same_scope_other_host :
    let as : List Act := [.command (.makeObject "model" []), .command (.makeObject "hostModel" [("name", .text "Eve")]),
      .command (.makeObject "target" []), .command (.makeScope "scope" "model" none none),
      .command (.makeScope "host" "hostModel" none none),
      .command (.makeBinding "b" "main" (.ok (.scope "name" 0 false)) "target" "value" {}),
      .command (.bind "b" "scope" none), .step, .step]
    let t := initial.play as
    let d : Command := .bind "b" "scope" (some "host")
    let u := (t.act (.command d)).act .step
    (t.execute d).reply = .accepted ∧ u.pending.isEmpty = true ∧
      ∃ b x y v, t.binding? "b" = some (b, x) ∧ t.scope? "scope" = some y.scope ∧ t.host? (some "host") = some y.host ∧
        (((t.boundTo b y).nextRound b).evaluateBound x y).2.2 = .ok v ∧ (u.store.listeners x.slot).audience = [] ∧
        u.store.property x.target x.property ≠ v ∧ ∃ z, u.bindings.get? b = some z ∧ z.state ≠ some y := by
  intro as t d u
  have hfacts : (t.execute d).reply = .accepted ∧ u.pending.isEmpty = true ∧
      ((t.binding? "b").bind fun p => (t.scope? "scope").bind fun scope => (t.host? (some "host")).bind fun host =>
        ((((t.boundTo p.1 { scope, host }).nextRound p.1).evaluateBound p.2 { scope, host }).2.2.toOption).bind fun v =>
          (u.bindings.get? p.1).map fun z => decide ((u.store.listeners p.2.slot).audience = [] ∧
            (u.store.property p.2.target p.2.property).display ≠ v.display ∧ z.state ≠ some { scope, host })) =
        some true := by decide +kernel
  obtain ⟨haccepted, hdone, hbinding⟩ := hfacts
  obtain ⟨⟨b, x⟩, hb, hbinding⟩ := Option.bind_eq_some_iff.1 hbinding
  obtain ⟨scope, hscope, hbinding⟩ := Option.bind_eq_some_iff.1 hbinding
  obtain ⟨host, hhost, hbinding⟩ := Option.bind_eq_some_iff.1 hbinding
  obtain ⟨v, hv, hbinding⟩ := Option.bind_eq_some_iff.1 hbinding
  obtain ⟨z, hz, hbinding⟩ := Option.map_eq_some_iff.1 hbinding
  obtain ⟨hnobody, hdiffers, hstate⟩ := of_decide_eq_true hbinding
  have hvalue : ∀ {result : Except ExpressionError Value}, result.toOption = some v → result = .ok v := by
    rintro (_ | _) ⟨⟩
    rfl
  refine ⟨haccepted, hdone, b, x, { scope, host }, v, hb, hscope, hhost, ?_, hnobody, ?_, z, hz, hstate⟩
  · exact hvalue hv
  · exact fun h => hdiffers (congrArg Value.display h)

end Session

end DataBinding
