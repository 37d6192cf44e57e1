import DataBinding.Proofs.ObjectHistory
import DataBinding.Proofs.Rebinding
import DataBinding.Proofs.SinkEvents

/-!
# What a listener is told

A change of a property or of an observer goes with the value before it and the value after it. It is told to everybody
who listens at that moment, and the changes that listeners make meanwhile are told before the rest of them hear of it.
The changes themselves form a chain, from the value at the beginning of a run to the value at its end (`linked_act`). A
listener is told each of them once (`notifies_play`): as a chain if none happens while another is still due to it, but
else the later change may come first.
-/

namespace DataBinding

/-- The pairs of values that a task tells a listener of a source, the new one first. -/
def Task.pairsDue (x : Source) (l : Listener) : Task → List (Value × Value)
  | .notify x' new previous rest => if x' = x then List.replicate (rest.count l) (new, previous) else []
  | _ => []

/-- The change of a source that a task tells of. -/
def Task.changes (x : Source) : Task → List (Value × Value)
  | .notify x' new previous _ => if x' = x then [(new, previous)] else []
  | _ => []

/-- Changes lead from one value to another, each from where the one before led to. To write an equal value is no
change. -/
inductive Linked : Value → List (Value × Value) → Value → Prop
  | nil {u} : Linked u [] u
  | equal {u v w ps} : u.equals v = true → Linked v ps w → Linked u ps w
  | cons {u v w ps} : Linked v ps w → Linked u ((v, u) :: ps) w

theorem Linked.append {u v w : Value} {ps qs : List (Value × Value)} (h : Linked u ps v) (h' : Linked v qs w) :
    Linked u (ps ++ qs) w := by
  induction h with
  | nil => exact h'
  | equal he _ ih => exact .equal he (ih h')
  | cons _ ih => exact .cons (ih h')

namespace Session

variable {g g' : Ghost} {s s' t : Session} {x : Source} {l : Listener} {a : Act} {as bs : List Act} {u v : Value}
  {E : Effect → Prop}

/-- The value of a source now. -/
def valueAt (s : Session) : Source → Option Value
  | .property o n => some (s.store.property o n)
  | .observer o => (s.store.observers.get? o).map (·.value)
  | .collection _ => none

/-- The pairs that a listener of a source is still to be told. -/
def pairsDue (x : Source) (l : Listener) (s : Session) : List (Value × Value) := s.pending.flatMap (Task.pairsDue x l)

/-- The pair that an act tells a listener of a source. -/
def pairsTold (x : Source) (l : Listener) (s : Session) : Act → List (Value × Value)
  | .command _ => []
  | .step =>
    match s.pending with
    | .notify x' new previous (l' :: _) :: _ =>
      if x' = x ∧ l' = l ∧ s.isPresent l' = true then [(new, previous)] else []
    | _ => []

/-- The changes of a source that an act leads to. -/
def changes (x : Source) (s : Session) (a : Act) : List (Value × Value) := (s.started a).flatMap (Task.changes x)

/-! ### Values -/

theorem property_setObject (s : Store) (o p : ObjectId) (x : Object) (n : String) :
    (s.setObject o x).property p n = if o = p then x.get n else s.property p n := by
  unfold Store.property
  rw [Store.object_setObject]
  split <;> rfl

theorem valueAt_setObserver (s : Session) (o : ObserverId) (y : Observer) (p : ObserverId) :
    ({ s with store := s.store.setObserver o y } : Session).valueAt (.observer p) =
      if o = p then some y.value else s.valueAt (.observer p) := by
  simp only [valueAt, Store.setObserver, Table.get?_insert]
  split <;> rfl

/-- An observer has the value that it had unless it was opened or told of an event. -/
theorem Move.observerValue {e : Effect} {a b : Ghost × Session} (hm : Move e a b) {o : ObserverId}
    (ho : o.number < a.2.store.fresh) (he : ∀ d, e ≠ .receives o d) (h : b.2.valueAt (.observer o) = some v) :
    a.2.valueAt (.observer o) = some v := by
  cases hm with
  | opening =>
    rw [valueAt, Store.openObserver_eq] at h
    simp only [Table.get?_insert] at h
    split at h
    next hne =>
      subst hne
      exact absurd ho (Nat.lt_irrefl _)
    · exact h
  | destroying hx =>
    simp only [valueAt, close_observers, Store.setObserver, Table.get?_insert] at h
    split at h
    next hp =>
      subst hp
      simpa [valueAt, hx] using h
    · exact h
  | erasing =>
    simp only [valueAt, close_observers, Table.get?_erase] at h
    split at h
    · cases h
    · exact h
  | listening hx | hearing hx =>
    rw [valueAt_setObserver] at h
    split at h
    next hp =>
      subst hp
      simpa [valueAt, hx] using h
    · exact h
  | receiving =>
    rw [valueAt_setObserver] at h
    split at h
    next hp => exact absurd (by rw [hp]) (he _)
    · exact h
  | releasing =>
    simp only [valueAt, close_observers] at h
    exact h
  | subscribing =>
    rw [Store.subscribe_eq] at h
    exact h
  | _ => exact h

/-- Whether an effect may change the value of a source. -/
def Effect.Sets : Effect → Source → Prop
  | .puts o n, .property p m => o = p ∧ n = m
  | .receives o _, .observer p => o = p
  | _, _ => False

/-- A source that there may have been for some time. -/
def IsOld (s : Session) : Source → Prop
  | .property o _ => o.number < s.store.fresh
  | .observer o => o.number < s.store.fresh
  | .collection _ => True

theorem IsOld.mono (h : s.IsOld x) (hf : s.store.fresh ≤ s'.store.fresh) : s'.IsOld x := by
  cases x with
  | property | observer => exact Nat.lt_of_lt_of_le h hf
  | collection => trivial

/-- Moves that do not set the value of a source leave it as it is. -/
theorem Moves.valueAt {p q : Ghost × Session} (hm : Moves E p q) (hx : p.2.IsOld x) (hE : ∀ f, E f → ¬f.Sets x)
    (h : q.2.valueAt x = some v) : p.2.valueAt x = some v := by
  induction hm with
  | refl => exact h
  | tail hm hlast ih =>
    obtain ⟨f, hf, hlast⟩ := hlast
    have hold := hx.mono (Moves.fresh_le hm)
    refine ih ?_
    cases x with
    | property o n =>
      have hsame := hlast.property hold fun he => hE f hf (he ▸ ⟨rfl, rfl⟩)
      simpa only [Session.valueAt, hsame] using h
    | observer o => exact hlast.observerValue hold (fun d he => hE f hf (he ▸ rfl)) h
    | collection => cases h

theorem valueAt_notify (s : Session) (y : Source) (new previous : Value) (x : Source) :
    (s.notify y new previous).session.valueAt x = s.valueAt x := by
  cases y with
  | collection => cases x <;> rfl
  | property o n =>
    cases x with
    | property p m =>
      simp only [valueAt, notify, Store.sweep]
      rw [property_setObject]
      split
      next h =>
        subst h
        rfl
      · rfl
    | observer | collection => rfl
  | observer o =>
    cases x with
    | observer p =>
      simp only [valueAt, notify, Store.sweep, Table.get?_modify]
      split
      next h =>
        subst h
        cases s.store.observers.get? o <;> rfl
      · rfl
    | property | collection => rfl

/-! ### Changes are told with the values before and after -/

/-- No task of those tells of a change of the source. -/
def Mum (x : Source) (ts : List Task) : Prop := ∀ t ∈ ts, t.changes x = []

theorem mum_idle {n : Nat} {ts : List Task} (h : Idle n ts) (hx : ∀ c, x ≠ .collection c) : Mum x ts := by
  intro t ht
  have hidle := h t ht
  cases t with
  | notify y =>
    obtain ⟨c, rfl⟩ : ∃ c, y = .collection c := hidle
    exact if_neg (Ne.symm (hx c))
  | _ => rfl

theorem mum_keep (rs : List Ref) : Mum x (rs.map .keep) := by
  intro t ht
  obtain ⟨r, -, rfl⟩ := List.mem_map.1 ht
  rfl

/-- If the source has a new value that is no equal of the one before, everybody who listens is going to be told first of
all. -/
def Announces (x : Source) (s : Session) (r : Reaction) : Prop :=
  ∀ v, r.session.valueAt x = some v → ∃ u, s.valueAt x = some u ∧
    (Mum x r.tasks ∧ (u = v ∨ u.equals v = true) ∨
      ∃ ts, r.tasks = .notify x v u (r.session.store.listeners x).audience :: ts ∧ Mum x ts)

theorem Announces.still {r : Reaction} (hv : ∀ v, r.session.valueAt x = some v → s.valueAt x = some v)
    (ht : Mum x r.tasks) : Announces x s r :=
  fun v h => ⟨v, hv v h, .inl ⟨ht, .inl rfl⟩⟩

theorem Announces.of_valueAt {r : Reaction} (hv : ∀ v, t.valueAt x = some v → s.valueAt x = some v)
    (h : Announces x t r) : Announces x s r := by
  intro v hr
  obtain ⟨u, hu, h⟩ := h v hr
  exact ⟨u, hv u hu, h⟩

theorem Announces.andThen {r : Reaction} (h : Announces x s r) {ts : List Task} (hts : Mum x ts) :
    Announces x s (r.andThen ts) := by
  intro v hv
  obtain ⟨u, hu, ⟨hmum, hsame⟩ | ⟨us, hus, hmum⟩⟩ := h v hv
  · refine ⟨u, hu, .inl ⟨fun t ht => ?_, hsame⟩⟩
    exact (List.mem_append.1 ht).elim (hmum t) (hts t)
  · refine ⟨u, hu, .inr ⟨us ++ ts, ?_, fun t ht => (List.mem_append.1 ht).elim (hmum t) (hts t)⟩⟩
    simp only [Reaction.andThen, hus, List.cons_append]

/-- The listeners of a source that has a new value are notified of the pair. -/
theorem announces_notify (ht : t.valueAt x = some v) (hs : s.valueAt x = some u) : Announces x s (t.notify x v u) := by
  intro w hw
  obtain rfl : v = w := by
    rw [valueAt_notify, ht] at hw
    exact Option.some.inj hw
  exact ⟨u, hs, .inr ⟨[], rfl, by simp [Mum]⟩⟩

theorem announces_notify_other {y : Source} (hy : y ≠ x) (hv : ∀ w, t.valueAt x = some w → s.valueAt x = some w) :
    Announces x s (t.notify y v u) := by
  refine .still (fun w hw => hv w (by rwa [valueAt_notify] at hw)) fun t' ht' => ?_
  obtain rfl := List.mem_singleton.1 ht'
  exact if_neg hy

theorem valueAt_put (s : Session) (o : ObjectId) (n : String) (v : Value) (hx : x ≠ .property o n) :
    ({ s with store := s.store.setObject o ((s.store.object o).put n v) } : Session).valueAt x = s.valueAt x := by
  cases x with
  | property p m =>
    simp only [valueAt]
    rw [property_setObject]
    split
    next h =>
      subst h
      rw [Object.get_put, if_neg]
      · rfl
      · rintro rfl
        exact hx rfl
    · rfl
  | observer | collection => rfl

theorem announces_write (s : Session) (o : ObjectId) (n : String) (v : Value) : Announces x s (s.write o n v) := by
  have hput : ({ s with store := s.store.setObject o ((s.store.object o).put n v) } : Session).valueAt (.property o n) =
      some v := by
    simp only [valueAt]
    rw [property_setObject, if_pos rfl, Object.get_put, if_pos rfl]
  unfold write
  dsimp only
  by_cases hx : x = .property o n
  · subst hx
    split
    · exact announces_notify hput rfl
    next hsame =>
      intro w hw
      obtain rfl := Option.some.inj (hput.symm.trans hw)
      have hequals : ((s.store.object o).get n).equals v = true := by simpa [Object.changes] using hsame
      exact ⟨_, rfl, .inl ⟨by simp [Mum], .inr hequals⟩⟩
  · have hother := valueAt_put s o n v hx
    split
    · exact announces_notify_other (Ne.symm hx) fun w hw => hother ▸ hw
    · exact .still (fun w hw => hother ▸ hw) (by simp [Mum])

/-- What concludes with a write does not set the value before. -/
theorem Announces.of_concludes {r : Reaction} (hr : Concludes E g s r) (hx : s.IsOld x) (hE : ∀ f, E f → ¬f.Sets x) :
    Announces x s r := by
  obtain ⟨g', t, q, rs, hm, hq, rfl⟩ := hr
  refine .andThen ?_ (mum_keep rs)
  refine .of_valueAt (fun v => Moves.valueAt hm hx hE) ?_
  cases hq with
  | still => exact .still (fun _ => id) (by simp [Mum])
  | @write o n w => exact announces_write t o n w

theorem Calm.not_sets {f : Effect} (h : Calm f) (x : Source) : ¬f.Sets x := by
  rcases h with (rfl | rfl) | rfl <;> cases x <;> exact id

theorem Announces.of_reacts {r : Reaction} (hr : ReactsWith E g s r) (hx : s.IsOld x) (hE : ∀ f, E f → ¬f.Sets x)
    (ht : Mum x r.tasks) : Announces x s r := by
  obtain ⟨g', hm, -⟩ := hr
  exact .still (fun v => Moves.valueAt hm hx hE) ht

/-- Commands that write no property tell of no change, but of collections. -/
theorem mum_execute (hsound : Sound (· ∈ s.held) s) {c : Command} (hw : c.writes = false)
    (hsource : ∀ c, x ≠ .collection c) : Mum x (s.execute c).tasks := by
  cases hc : c.tells with
  | false => exact mum_idle (idle_execute hc hw) hsource
  | true =>
    intro t ht
    cases ha : s.announcement? c with
    | some e =>
      obtain ⟨y, -, htasks, -⟩ := execute_of_announcement? (g := s.bare) hsound ha
      rw [htasks] at ht
      obtain rfl := List.mem_singleton.1 ht
      rfl
    | none =>
      obtain ⟨j, d, rfl⟩ := execute_of_announcement?_none (g := s.bare) hsound hc ha t ht
      rfl

theorem announces_execute (hsound : Sound (· ∈ s.held) s) (hx : s.IsOld x) (hsource : ∀ c, x ≠ .collection c)
    (c : Command) : Announces x s { session := (s.execute c).session, tasks := (s.execute c).tasks } := by
  cases hw : c.writes with
  | true =>
    refine .of_concludes (concludes_execute (g := s.bare) hsound (fun _ => isAlive_iff.2) hw) hx ?_
    rintro f (hf | ⟨b, -, rfl⟩)
    · exact hf.not_sets x
    · cases x <;> exact id
  | false =>
    refine .of_reacts (reacts_execute hsound (fun _ _ _ => False) c) hx ?_ (mum_execute hsound hw hsource)
    intro f hf
    cases hf with
    | calm hf => exact hf.not_sets x
    | puts hc => simp [hw] at hc
    | hears | emits | ends => cases x <;> exact id

theorem announces_tell (hsound : Sound (· ∈ s.held) s) (hx : s.IsOld x) (new previous : Value) (l : Listener) :
    Announces x s (s.tell new previous l) := by
  cases l with
  | binding b =>
    refine .of_concludes ((concludes_refresh (g := s.bare) hsound b).keep b.ref) hx ?_
    rintro f (hf | rfl)
    · exact hf.not_sets x
    · cases x <;> exact id
  | recorder i =>
    refine .of_reacts (reacts_tell_recorder (g := s.bare) i new previous) hx (fun f hf => Calm.not_sets (.inl hf) x) ?_
    simp only [tell]
    split
    · simp [Mum]
    · split <;> simp [Mum, Task.changes]

theorem announces_receive (hsound : Sound (· ∈ s.held) s) (hx : s.IsOld x) {e : StreamEvent}
    (he : Within (· ∈ s.held) (sharedInEvent e)) (k : Sink) : Announces x s (s.receive e k) := by
  cases k with
  | handler k =>
    refine .of_reacts (reacts_receive (g := s.bare) hsound he (.handler k)) hx ?_ ?_
    · rintro f (hf | ⟨o, ho, -⟩)
      · exact Calm.not_sets (.inl hf) x
      · cases ho
    · simp only [receive]
      split
      · simp [Mum]
      · split <;> simp [Mum, Task.changes]
  | observer o =>
    simp only [receive]
    split
    · exact .still (fun _ => id) (by simp [Mum])
    next y hy =>
      have hset : ∀ p, ({ s with store := s.store.setObserver o (y.receive e).1 } : Session).valueAt (.observer p) =
          if o = p then some (y.receive e).1.value else s.valueAt (.observer p) := valueAt_setObserver s o _
      have hsame : x ≠ .observer o → ∀ w,
          ({ s with store := s.store.setObserver o (y.receive e).1 } : Session).valueAt x = some w →
            s.valueAt x = some w := by
        intro hne w hw
        cases x with
        | observer p =>
          rw [hset, if_neg fun h => hne (by rw [h])] at hw
          exact hw
        | property | collection => exact hw
      split
      next hnone =>
        refine .still (fun w hw => ?_) (by simp [Mum])
        by_cases hxo : x = .observer o
        · subst hxo
          have hw : ({ s with store := s.store.setObserver o (y.receive e).1 } : Session).valueAt (.observer o) =
              some w := hw
          rw [hset, if_pos rfl, Observer.value_receive_of_none hnone] at hw
          simpa [valueAt, hy] using hw
        · exact hsame hxo w hw
      next new previous hsome =>
        obtain ⟨-, -, rfl, hnew⟩ := Observer.receive_eq_some hsome
        refine .andThen ?_ (mum_keep [o.ref])
        by_cases hxo : x = .observer o
        · subst hxo
          refine announces_notify ?_ ?_
          · rw [hset, if_pos rfl, hnew]
          · simp [valueAt, hy]
        · exact announces_notify_other (Ne.symm hxo) (hsame hxo)

/-- If an act changes the value of a source, it leads to everybody's being told who listens. -/
theorem announces_act (hsound : Sound (· ∈ s.held) s) (hx : s.IsOld x) (hsource : ∀ c, x ≠ .collection c) (a : Act) :
    Announces x s { session := s.act a, tasks := s.started a } := by
  obtain ⟨r, ho, hact, htasks, -⟩ := exists_outcome hsound a
  have hr : Announces x s r := by
    cases ho with
    | @command t c ts hc hts =>
      obtain ⟨ps, -, rfl, -⟩ := eq_of_carriedOut? hc
      have hreports : Mum x ts := by
        intro t' ht'
        obtain ⟨label, reply, rfl⟩ := hts t' ht'
        rfl
      refine Announces.of_valueAt (t := { s with pending := ps }) (fun _ hv => by cases x <;> exact hv) ?_
      have hold : ({ s with pending := ps } : Session).IsOld x := by cases x <;> exact hx
      exact (announces_execute (sound_carriedOut? hsound hc) hold hsource c).andThen hreports
    | @tell y new previous l ls rest ha hp hl =>
      have hs : Sound (bare _).hand _ := hsound.take hp [.notify y new previous ls] (by simp [sharedInTask])
      refine Announces.of_valueAt (t := { s with pending := .notify y new previous ls :: rest })
        (fun _ hv => by cases x <;> exact hv) ?_
      exact announces_tell hs (by cases x <;> exact hx) new previous l
    | @receive j e k ks rest ha hp =>
      have hs : Sound (bare _).hand _ := hsound.take hp [.deliver j e ks] (by simp [sharedInTask])
      refine Announces.of_valueAt (t := { s with pending := .deliver j e ks :: rest })
        (fun _ hv => by cases x <;> exact hv) ?_
      refine announces_receive hs (by cases x <;> exact hx) (fun z hz => ?_) k
      exact hs.outside.pending (t := .deliver j e ks) (by simp) z (List.mem_cons_of_mem _ hz)
    | still hc hl hd =>
      obtain ⟨g, hm⟩ := moves_act hsound (fun _ _ _ => False) a
      refine .still (fun v => Moves.valueAt hm hx fun f hf => ?_) (by simp [Mum])
      cases hf with
      | calm hf => exact hf.not_sets x
      | puts hc' => simp [hc] at hc'
      | rewrites ha hp hpresent => simp [hl _ _ _ _ _ _ ha hp] at hpresent
      | receives ha hp => exact absurd hp (hd _ _ _ _ _ ha)
      | work | bound | told | emits | ends => cases x <;> exact id
  intro v hv
  rw [hact] at hv ⊢
  rw [← htasks]
  have hpush : (r.session.push r.tasks).valueAt x = r.session.valueAt x := by cases x <;> rfl
  exact hr v (hpush ▸ hv)

theorem changes_of_mum (h : Mum x (s.started a)) : s.changes x a = [] := List.flatMap_eq_nil_iff.2 h

/-- The changes of an act lead from the value before it to the value after it. -/
theorem linked_act (hsound : Sound (· ∈ s.held) s) (hx : s.IsOld x) (hsource : ∀ c, x ≠ .collection c)
    (hv : (s.act a).valueAt x = some v) : ∃ u, s.valueAt x = some u ∧ Linked u (s.changes x a) v := by
  obtain ⟨u, hu, ⟨hmum, hsame⟩ | ⟨ts, hts, hmum⟩⟩ := announces_act hsound hx hsource a v hv
  · refine ⟨u, hu, ?_⟩
    rw [changes_of_mum hmum]
    rcases hsame with rfl | hsame
    · exact .nil
    · exact .equal hsame .nil
  · have hstarted : s.started a = .notify x v u ((s.act a).store.listeners x).audience :: ts := hts
    have hnone : ts.flatMap (Task.changes x) = [] := List.flatMap_eq_nil_iff.2 hmum
    have hone : s.changes x a = [(v, u)] := by
      rw [changes, hstarted, List.flatMap_cons, hnone, Task.changes, if_pos rfl, List.append_nil]
    exact ⟨u, hu, hone ▸ .cons .nil⟩

/-- The changes of a run lead from the value at its beginning to the value at its end. -/
theorem linked_play (hsound : Sound (· ∈ s.held) s) (hx : s.IsOld x) (hsource : ∀ c, x ≠ .collection c)
    (hv : (s.play bs).valueAt x = some v) : ∃ u, s.valueAt x = some u ∧ Linked u (along (changes x) s bs) v := by
  induction bs generalizing s with
  | nil => exact ⟨v, hv, .nil⟩
  | cons a bs ih =>
    obtain ⟨g, hm⟩ := moves_act hsound (fun _ _ _ => False) a
    obtain ⟨w, hw, hlater⟩ := ih (hsound.act a) (hx.mono (Moves.fresh_le hm)) hv
    obtain ⟨u, hu, hfirst⟩ := linked_act hsound hx hsource hw
    exact ⟨u, hu, hfirst.append hlater⟩

/-! ### Registered listeners -/

/-- The listener is registered with the source once, and there. -/
structure Registered (x : Source) (l : Listener) (s : Session) : Prop where
  once : (s.store.listeners x).audience.count l = 1
  present : s.isPresent l = true

theorem Registered.ne_nil (h : Registered x l s) : (s.store.listeners x).entries ≠ [] := by
  intro hnil
  have := h.once
  simp [Listeners.audience, hnil] at this

/-- A source that somebody is registered with has been there for some time. -/
theorem isOld_of_listed (hsound : Sound (· ∈ s.held) s) (hd : Dated s) (hne : (s.store.listeners x).entries ≠ []) :
    s.IsOld x := by
  cases x with
  | collection => trivial
  | property o n =>
    refine hsound.old (x := .object o) ?_
    cases ho : s.store.objects.get? o with
    | none => simp [Store.listeners, Store.object, ho, Table.get?_empty] at hne
    | some y => simp [Store.Knows, ho]
  | observer o =>
    refine hd ?_
    cases ho : s.store.observers.get? o with
    | none => simp [Store.listeners, ho] at hne
    | some y => rfl

theorem exists_valueAt_of_listed (hne : (s.store.listeners x).entries ≠ []) (hsource : ∀ c, x ≠ .collection c) :
    ∃ v, s.valueAt x = some v := by
  cases x with
  | collection c => exact absurd rfl (hsource c)
  | property o n => exact ⟨_, rfl⟩
  | observer o =>
    cases ho : s.store.observers.get? o with
    | none => simp [Store.listeners, ho] at hne
    | some y => exact ⟨y.value, by simp [Session.valueAt, ho]⟩

theorem pairsDue_of_mum {ts : List Task} (h : Mum x ts) : ts.flatMap (Task.pairsDue x l) = [] := by
  refine List.flatMap_eq_nil_iff.2 fun t ht => ?_
  have hnone := h t ht
  cases t with
  | notify y new previous rest =>
    by_cases hy : y = x
    · simp [Task.changes, hy] at hnone
    · exact if_neg hy
  | _ => rfl

/-- A change is going to be told to whoever is registered. -/
theorem pairsDue_started (hsound : Sound (· ∈ s.held) s) (hx : s.IsOld x) (hsource : ∀ c, x ≠ .collection c)
    (h : Registered x l (s.act a)) : (s.started a).flatMap (Task.pairsDue x l) = s.changes x a := by
  obtain ⟨v, hv⟩ := exists_valueAt_of_listed h.ne_nil hsource
  obtain ⟨u, hu, ⟨hmum, -⟩ | ⟨ts, hts, hmum⟩⟩ := announces_act hsound hx hsource a v hv
  · rw [pairsDue_of_mum hmum, changes_of_mum hmum]
  · have hstarted : s.started a = .notify x v u ((s.act a).store.listeners x).audience :: ts := hts
    have hnone : ts.flatMap (Task.changes x) = [] := List.flatMap_eq_nil_iff.2 hmum
    rw [changes, hstarted, List.flatMap_cons, List.flatMap_cons, hnone, pairsDue_of_mum hmum]
    simp [Task.pairsDue, Task.changes, h.once]

/-- What is due to a listener is told from the front, and what changes meanwhile goes before. -/
theorem stacks_pairs (hsound : Sound (· ∈ s.held) s) (hx : s.IsOld x) (hsource : ∀ c, x ≠ .collection c)
    (hl : s.isPresent l = true) (h : Registered x l (s.act a)) :
    Stacks (pairsDue x l) (pairsTold x l) (changes x) s a := by
  refine ⟨(s.remaining a).flatMap (Task.pairsDue x l), ?_, ?_⟩
  · cases a with
    | command c => rfl
    | step =>
      unfold pairsDue pairsTold remaining
      cases s.pending with
      | nil => rfl
      | cons t rest =>
        match t with
        | .notify y new previous (l' :: ls) =>
          by_cases hy : y = x
          · by_cases hl' : l' = l <;> simp [Task.left, Task.pairsDue, hy, hl', hl, List.replicate_succ]
          · simp [Task.left, Task.pairsDue, hy]
        | .notify y _ _ [] => by_cases hy : y = x <;> simp [Task.left, Task.pairsDue, hy]
        | .deliver _ _ [] | .deliver _ _ (_ :: _) | .perform _ [] | .perform _ (_ :: _) | .report .. | .keep ..
        | .adopt .. => rfl
  · rw [pairsDue, pending_act hsound, List.flatMap_append, pairsDue_started hsound hx hsource h]

/-- What a listener of a source is told in a run. -/
structure Notifies (x : Source) (l : Listener) (s : Session) (bs : List Act) : Prop where
  /-- The changes lead from the value at the beginning to the value at the end. -/
  chain : ∃ u v, s.valueAt x = some u ∧ (s.play bs).valueAt x = some v ∧ Linked u (along (changes x) s bs) v
  /-- The listener is told from the front of what is due, and a change that comes meanwhile goes before the rest. -/
  stacked : AtEach (Stacks (pairsDue x l) (pairsTold x l) (changes x)) s bs
  /-- It is told each change that was due or comes once, unless it is still due. -/
  once : (along (pairsTold x l) s bs ++ (s.play bs).pairsDue x l).Perm (s.pairsDue x l ++ along (changes x) s bs)
  /-- If no change comes while another is due to it, what it is told is a chain that ends at the present value once
  nothing is due. -/
  inOrder : AtEach (fun s a => s.changes x a ≠ [] → s.pairsDue x l = []) s bs → s.pairsDue x l = [] →
    (s.play bs).pairsDue x l = [] → along (pairsTold x l) s bs = along (changes x) s bs ∧
      ∃ u v, s.valueAt x = some u ∧ (s.play bs).valueAt x = some v ∧ Linked u (along (pairsTold x l) s bs) v

/-- Whatever listeners do, one that stays registered is told each change. -/
theorem notifies_play (as bs : List Act) {x : Source} {l : Listener} (hsource : ∀ c, x ≠ .collection c)
    (h : ∀ cs, cs <+: bs → Registered x l ((initial.play as).play cs)) : Notifies x l (initial.play as) bs := by
  have hsound := sound_initial.play as
  have hstart := h [] List.nil_prefix
  have hold := isOld_of_listed hsound (dated_play as) hstart.ne_nil
  obtain ⟨v, hv⟩ := exists_valueAt_of_listed (h bs (List.prefix_refl bs)).ne_nil hsource
  obtain ⟨u, hu, hlinked⟩ := linked_play hsound hold hsource hv
  have hstacks : AtEach (Stacks (pairsDue x l) (pairsTold x l) (changes x)) (initial.play as) bs := by
    refine .of_prefixes (I := fun s => Sound (· ∈ s.held) s ∧ s.IsOld x) (R := Registered x l) (fun s a hs => ?_)
      (fun s a hs hr hr' => stacks_pairs hs.1 hs.2 hsource hr.present hr') ⟨hsound, hold⟩ h
    obtain ⟨g, hm⟩ := moves_act hs.1 (fun _ _ _ => False) a
    exact ⟨hs.1.act a, hs.2.mono (Moves.fresh_le hm)⟩
  constructor
  case chain => exact ⟨u, v, hu, hv, hlinked⟩
  case stacked => exact hstacks
  case once => exact perm_along hstacks
  case inOrder =>
    intro hnone hdue hdue'
    have htold : along (pairsTold x l) (initial.play as) bs = along (changes x) (initial.play as) bs := by
      have := along_eq hstacks hnone
      rwa [hdue, hdue', List.append_nil, List.nil_append] at this
    exact ⟨htold, u, v, hu, hv, htold ▸ hlinked⟩

/-- The recorder `a` writes the property `p` again when it is told of a change, and the recorder `b` comes after it. -/
theorem notifies_play_nested :
    let as : List Act := [.command (.makeObject "o" []), .command (.makeRecorder "a" [.set "o" "p" (.int 2)] 1),
      .command (.makeRecorder "b" [] 1), .command (.listen (.property "o" "p") "a" "s"),
      .command (.listen (.property "o" "p") "b" "t")]
    let bs : List Act := .command (.set "o" "p" (.int 1)) :: List.replicate 9 .step
    let x : Source := .property ⟨1⟩ "p"
    (∀ cs, cs <+: bs → Registered x (.recorder ⟨3⟩) ((initial.play as).play cs)) ∧
      ((along (pairsTold x (.recorder ⟨3⟩)) (initial.play as) bs).map fun p => (p.1.int?, p.2.int?)).Perm
        [(some 1, none), (some 2, some 1)] := by
  intro as bs x
  have hregistered : ∀ k < bs.length + 1,
      (((initial.play as).play (bs.take k)).store.listeners x).audience.count (.recorder ⟨3⟩) = 1 ∧
        ((initial.play as).play (bs.take k)).isPresent (.recorder ⟨3⟩) = true := by
    decide +kernel
  have hall : ∀ cs, cs <+: bs → Registered x (.recorder ⟨3⟩) ((initial.play as).play cs) := by
    intro cs hcs
    obtain ⟨honce, hpresent⟩ := hregistered cs.length (Nat.lt_succ_of_le hcs.length_le)
    rw [← List.prefix_iff_eq_take.1 hcs] at honce hpresent
    exact ⟨honce, hpresent⟩
  have htold := (notifies_play as bs (x := x) (by simp [x]) hall).once
  have hbefore : (initial.play as).pairsDue x (.recorder ⟨3⟩) = [] := List.isEmpty_iff.1 (by decide +kernel)
  have hafter : ((initial.play as).play bs).pairsDue x (.recorder ⟨3⟩) = [] := List.isEmpty_iff.1 (by decide +kernel)
  have hchanges : (along (changes x) (initial.play as) bs).map (fun p => (p.1.int?, p.2.int?)) =
      [(some 1, none), (some 2, some 1)] := by decide +kernel
  rw [hbefore, hafter, List.append_nil, List.nil_append] at htold
  exact ⟨hall, hchanges ▸ htold.map _⟩

/-- So the last pair that a listener is told need not have the present value. -/
theorem not_last_pair :
    ¬∀ (as bs : List Act) (x : Source) (l : Listener), (∀ c, x ≠ .collection c) →
      (∀ cs, cs <+: bs → Registered x l ((initial.play as).play cs)) → (initial.play as).pending = [] →
        ((initial.play as).play bs).pending = [] → ∀ p, (along (pairsTold x l) (initial.play as) bs).getLast? = some p →
          ((initial.play as).play bs).valueAt x = some p.1 := by
  intro h
  let as : List Act := [.command (.makeObject "o" []), .command (.makeRecorder "a" [.set "o" "p" (.int 2)] 1),
    .command (.makeRecorder "b" [] 1), .command (.listen (.property "o" "p") "a" "s"),
    .command (.listen (.property "o" "p") "b" "t")]
  let bs : List Act := .command (.set "o" "p" (.int 1)) :: List.replicate 20 .step
  let x : Source := .property ⟨1⟩ "p"
  have hregistered : ∀ k < bs.length + 1,
      (((initial.play as).play (bs.take k)).store.listeners x).audience.count (.recorder ⟨3⟩) = 1 ∧
        ((initial.play as).play (bs.take k)).isPresent (.recorder ⟨3⟩) = true := by
    decide +kernel
  have hall : ∀ cs, cs <+: bs → Registered x (.recorder ⟨3⟩) ((initial.play as).play cs) := by
    intro cs hcs
    obtain ⟨honce, hpresent⟩ := hregistered cs.length (Nat.lt_succ_of_le hcs.length_le)
    rw [← List.prefix_iff_eq_take.1 hcs] at honce hpresent
    exact ⟨honce, hpresent⟩
  have hlast : (along (pairsTold x (.recorder ⟨3⟩)) (initial.play as) bs).getLast?.map (·.1.int?) = some (some 1) := by
    decide +kernel
  have hvalue : (((initial.play as).play bs).valueAt x).map (·.int?) = some (some 2) := by decide +kernel
  obtain ⟨p, hp, hone⟩ := Option.map_eq_some_iff.1 hlast
  have hbefore : (initial.play as).pending = [] := List.isEmpty_iff.1 (by decide +kernel)
  have hafter : ((initial.play as).play bs).pending = [] := List.isEmpty_iff.1 (by decide +kernel)
  rw [h as bs x _ (by simp [x]) hall hbefore hafter p hp, Option.map_some, hone] at hvalue
  cases hvalue

end Session

end DataBinding
