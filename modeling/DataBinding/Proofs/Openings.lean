import DataBinding.Proofs.Assignment
import DataBinding.Proofs.LettingGo

/-!
# Openings

An evaluation opens observers, and reports each of them as read. Its registry has entered what it has opened, and the
subscription of a new observer is one to the stream that it was opened for (`Eval.Opens`). So from the session before an
evaluation to the one after it, those observers have been subscribed that were opened for cold streams, and they are the
only strays (`tends_evaluate`).
-/

namespace DataBinding

namespace Eval

variable {a b c : EvalState} {i : StreamId} {o : ObserverId} {x : Observer}

/-- The observer is there since `a`, and is subscribed to the stream. -/
structure IsNew (a b : EvalState) (i : StreamId) (o : ObserverId) : Prop where
  young : a.store.fresh ≤ o.number
  old : o.number < b.store.fresh
  subscribed : ∃ x, b.store.observers.get? o = some x ∧ x.isDestroyed = false ∧
    x.subscription.label? = b.store.labelOf i

/-- From `a` to `b`, observers have been opened. -/
structure Opens (a b : EvalState) : Prop where
  fresh : a.store.fresh ≤ b.store.fresh
  reads : a.reads <+: b.reads
  labels (i : StreamId) : b.store.labelOf i = a.store.labelOf i
  kept {o : ObserverId} : o.number < a.store.fresh → b.store.observers.get? o = a.store.observers.get? o
  there {o : ObserverId} : (b.store.observers.get? o).isSome →
    (a.store.observers.get? o).isSome ∨ ∃ i, .stream i o ∈ b.reads
  read {i : StreamId} {o : ObserverId} : .stream i o ∈ b.reads →
    .stream i o ∈ a.reads ∨ a.registry.entries.get? i = some o ∨ IsNew a b i o
  entered {i : StreamId} {o : ObserverId} : b.registry.entries.get? i = some o →
    a.registry.entries.get? i = some o ∨ .stream i o ∈ b.reads ∧ IsNew a b i o

theorem Opens.refl : Opens a a :=
  ⟨Nat.le_refl _, List.prefix_refl _, fun _ => rfl, fun _ => rfl, .inl, .inl, .inl⟩

theorem IsNew.later (h : IsNew a b i o) (h' : Opens b c) : IsNew a c i o where
  young := h.young
  old := Nat.lt_of_lt_of_le h.old h'.fresh
  subscribed := by
    obtain ⟨x, hx, hd, hlabel⟩ := h.subscribed
    exact ⟨x, (h'.kept h.old).trans hx, hd, hlabel.trans (h'.labels i).symm⟩

theorem IsNew.earlier (h : Opens a b) (h' : IsNew b c i o) : IsNew a c i o :=
  { h' with young := Nat.le_trans h.fresh h'.young }

theorem Opens.trans (h : Opens a b) (h' : Opens b c) : Opens a c where
  fresh := Nat.le_trans h.fresh h'.fresh
  reads := h.reads.trans h'.reads
  labels i := (h'.labels i).trans (h.labels i)
  kept ho := (h'.kept (Nat.lt_of_lt_of_le ho h.fresh)).trans (h.kept ho)
  there ho := by
    rcases h'.there ho with ho | hread
    · exact (h.there ho).imp_right fun ⟨i, hi⟩ => ⟨i, h'.reads.subset hi⟩
    · exact .inr hread
  read hr := by
    rcases h'.read hr with hr | he | hnew
    · exact (h.read hr).imp_right (.imp_right (·.later h'))
    · rcases h.entered he with he | ⟨-, hnew⟩
      · exact .inr (.inl he)
      · exact .inr (.inr (hnew.later h'))
    · exact .inr (.inr (.earlier h hnew))
  entered he := by
    rcases h'.entered he with he | ⟨hr, hnew⟩
    · exact (h.entered he).imp_right fun ⟨hr, hnew⟩ => ⟨h'.reads.subset hr, hnew.later h'⟩
    · exact .inr ⟨hr, .earlier h hnew⟩

theorem opens_newObject (a : EvalState) (ps : Table String Value) :
    Opens a { a with store := (a.store.newObject ps).1 } where
  fresh := Nat.le_succ _
  reads := List.prefix_refl _
  labels _ := rfl
  kept _ := rfl
  there := .inl
  read := .inl
  entered := .inl

/-- Reads of properties may have been reported. -/
theorem opens_reported (w : Watch) (a : EvalState) (p : ObjectId) (n : String) :
    Opens a { a with reads := reported w a.reads p n } where
  fresh := Nat.le_refl _
  reads := by
    unfold reported
    split
    · exact List.prefix_append ..
    · exact List.prefix_refl _
  labels _ := rfl
  kept _ := rfl
  there := .inl
  read {i o} hr := by
    have hr : Read.stream i o ∈ reported w a.reads p n := hr
    unfold reported at hr
    split at hr
    · exact .inl ((List.mem_append.1 hr).resolve_right (by simp))
    · exact .inl hr
  entered := .inl

theorem label?_subscription (s : Store) (i : StreamId) (k : Sink) :
    (s.subscription i k).label? = (s.streams.get? i).bind Stream.label? := by
  unfold Store.subscription Store.subscribe
  cases s.streams.get? i with
  | none => rfl
  | some x =>
    cases x with
    | cold => rfl
    | subject y =>
      simp only [Stream.subscribe, Option.bind_some, Stream.label?]
      split <;> rfl

theorem label?_subscribed (i j : StreamId) (k : Sink) (s : Store) :
    ((s.streams.modify i fun x => (x.subscribe i k).1).get? j).bind Stream.label? =
      (s.streams.get? j).bind Stream.label? := by
  rw [Table.get?_modify]
  split
  next hij =>
    subst hij
    cases s.streams.get? i with
    | none => rfl
    | some x =>
      cases x with
      | cold => rfl
      | subject y =>
        have hsubject : ∃ z, (Stream.subscribe i k (.subject y)).1 = .subject z := by
          simp only [Stream.subscribe]
          split <;> exact ⟨_, rfl⟩
        obtain ⟨z, hz⟩ := hsubject
        simp [hz, Stream.label?]
  · rfl

/-- A stream is read through the observer that the registry has, or through one that is opened. -/
theorem opens_observerFor {alive : StreamId → Bool} {st : Store} {r : Registry}
    (h : a.registry.observerFor alive a.store i = (st, r, o)) :
    Opens a { store := st, registry := r, reads := a.reads ++ [.stream i o] } := by
  obtain ⟨rfl, rfl, rfl⟩ : st = (a.registry.observerFor alive a.store i).1 ∧
      r = (a.registry.observerFor alive a.store i).2.1 ∧ o = (a.registry.observerFor alive a.store i).2.2 := by
    rw [h]
    exact ⟨rfl, rfl, rfl⟩
  clear h
  cases hr : a.registry.get? a.store i with
  | some o =>
    rw [Registry.observerFor_of_get? hr]
    refine ⟨Nat.le_refl _, List.prefix_append .., fun _ => rfl, fun _ => rfl, .inl, fun {j p} hread => ?_, .inl⟩
    rcases List.mem_append.1 hread with hread | hread
    · exact .inl hread
    · obtain ⟨rfl, rfl⟩ := Read.stream.inj (List.mem_singleton.1 hread)
      exact .inr (.inl (Registry.get?_eq_some.1 hr).1)
  | none =>
    rw [Registry.observerFor_of_none hr]
    dsimp only
    have hget := Store.observers_openObserver a.store i
    have hlabels : ∀ j, ((a.store.openObserver i).1.streams.get? j).bind Stream.label? = a.store.labelOf j := by
      intro j
      rw [Store.openObserver_eq]
      exact label?_subscribed i j _ a.store
    have hfresh := Store.fresh_openObserver a.store i
    have hnew : ∀ {b : EvalState}, b.store = (a.store.openObserver i).1 → IsNew a b i ⟨a.store.fresh⟩ := by
      intro b hb
      refine ⟨Nat.le_refl _, by rw [hb, hfresh]; exact Nat.lt_succ_self _, a.store.opened i, ?_, ?_, ?_⟩
      · rw [hb, hget, if_pos rfl]
      · exact Store.isDestroyed_opened ..
      · rw [Store.subscription_opened, label?_subscription, hb]
        exact (hlabels i).symm
    refine ⟨by rw [hfresh]; exact Nat.le_succ _, List.prefix_append .., hlabels, fun {p} hp => ?_, fun {p} hp => ?_,
      fun {j p} hread => ?_, fun {j p} he => ?_⟩
    · rw [hget, if_neg]
      rintro rfl
      exact Nat.lt_irrefl _ hp
    · dsimp only at hp
      rw [hget] at hp
      split at hp
      next hpe =>
        subst hpe
        exact .inr ⟨i, List.mem_append_right _ (List.mem_singleton_self _)⟩
      · exact .inl hp
    · rcases List.mem_append.1 hread with hread | hread
      · exact .inl hread
      · obtain ⟨rfl, rfl⟩ := Read.stream.inj (List.mem_singleton.1 hread)
        exact .inr (.inr (hnew rfl))
    · rw [Table.get?_insert] at he
      split at he
      next hij =>
        subst hij
        obtain rfl := Option.some.inj he
        exact .inr ⟨List.mem_append_right _ (List.mem_singleton_self _), hnew rfl⟩
      · exact .inl (Registry.entries_swept he)

/-! ### Every evaluation -/

/-- The computation opens observers at most, and of its result `Q` holds. -/
def OpensOnly {α : Type} (Q : α → Prop) (m : Eval α) : Prop :=
  ∀ a : EvalState, Opens a (m.run a).2 ∧ ∀ r, (m.run a).1 = .ok r → Q r

section

variable {α β : Type} {Q : α → Prop} {Q' : β → Prop}

theorem OpensOnly.bind {m : Eval α} {f : α → Eval β} (hm : OpensOnly Q m) (hf : ∀ r, Q r → OpensOnly Q' (f r)) :
    OpensOnly Q' (m >>= f) := by
  intro a
  obtain ⟨hab, hr⟩ := hm a
  rw [run_bind]
  cases hrun : m.run a with
  | mk r? b =>
    rw [hrun] at hab hr
    cases r? with
    | error x => exact ⟨hab, fun _ h => by cases h⟩
    | ok r =>
      obtain ⟨hbc, hr'⟩ := hf r (hr r rfl) b
      exact ⟨hab.trans hbc, hr'⟩

/-- An operation that does not change the state. -/
theorem OpensOnly.of_state {m : Eval α} (h : ∀ a, (m.run a).2 = a ∧ ∀ r, (m.run a).1 = .ok r → Q r) :
    OpensOnly Q m := by
  intro a
  obtain ⟨hs, hr⟩ := h a
  rw [hs]
  exact ⟨.refl, hr⟩

end

/-- The rules by which evaluations open observers at most. -/
theorem opensOnly_rules (ctx : EvalContext) :
    Rules (fun _ _ : Unit => True) ctx ctx (· = ·) (fun _ => True) (fun _ _ => True)
      (fun _ Q m _ => OpensOnly (Q ()) m) := by
  refine rules_alone ctx .bind .of_state (fun w p n a => ?_) (fun i a => ?_) fun es a => ?_
  · rw [run_readValue]
    exact ⟨opens_reported w a p n, fun _ _ => trivial⟩
  · exact ⟨opens_observerFor rfl, fun _ _ => trivial⟩
  · rw [run_newObject]
    exact ⟨opens_newObject a _, fun _ _ => trivial⟩

theorem opens_evaluate (ctx : EvalContext) (w : Watch) (e : Expr) (a : EvalState) :
    Opens a ((e.evaluate ctx w).run a).2 :=
  ((opensOnly_rules ctx).evaluate e (fun _ _ => trivial) (a := ()) (w := w) rfl a).1

end Eval

namespace Session

variable {os : List ObserverId} {s t : Session} {y : SystemId} {z : System} {b : EvalState} {label : String}
  {reads : List Read} {k : Sink} {n : Nat}

/-! ### What an evaluation does to a session -/

/-- Those of the observers that were read through that have been opened for cold streams since then. -/
def openedIn (t : Store) (reads : List Read) (n : Nat) : List (Sink × String) :=
  reads.filterMap fun
    | .stream i o => if n ≤ o.number then (t.labelOf i).map fun label => (.observer o, label) else none
    | .property .. => none

theorem mem_openedIn {t : Store} : (k, label) ∈ openedIn t reads n ↔
    ∃ i o, k = .observer o ∧ .stream i o ∈ reads ∧ n ≤ o.number ∧ t.labelOf i = some label := by
  unfold openedIn
  rw [List.mem_filterMap]
  constructor
  · rintro ⟨r, hr, hk⟩
    cases r with
    | property p m => cases hk
    | stream i o =>
      dsimp only at hk
      split at hk
      next hn =>
        obtain ⟨l, hl, he⟩ := Option.map_eq_some_iff.1 hk
        obtain ⟨rfl, rfl⟩ := Prod.mk.inj he
        exact ⟨i, o, rfl, hr, hn, hl⟩
      · cases hk
  · rintro ⟨i, o, rfl, hr, hn, hl⟩
    exact ⟨_, hr, by simp [hn, hl]⟩

section

variable (h : Attended os s) (hz : s.systems.get? y = some z)
  (hb : Eval.Opens { store := s.store, registry := z.registry } b)

include h hz hb in
/-- An observer that was read through and is young has been opened for that stream. -/
theorem isNew_of_read {i : StreamId} {o : ObserverId} (hr : .stream i o ∈ b.reads) (ho : s.store.fresh ≤ o.number) :
    Eval.IsNew { store := s.store, registry := z.registry } b i o := by
  rcases hb.read hr with hr | he | hnew
  · cases hr
  · exact absurd (h.entered ((entryIn_of_get? hz _).trans he)).2 (Nat.not_lt.2 ho)
  · exact hnew

include h hb in
/-- A young observer has been read through. -/
theorem read_of_young {o : ObserverId} (ho : (b.store.observers.get? o).isSome) (hnot : ¬o.number < s.store.fresh) :
    ∃ i, .stream i o ∈ b.reads := by
  rcases hb.there ho with hold | hread
  · exact absurd (h.observers hold) hnot
  · exact hread

include hb in
theorem coldOf_withEval_of_old (hk : k.number < s.store.fresh ∨ ∃ n, k = .handler n) :
    (s.withEval y z b).coldOf k = s.coldOf k := by
  cases k with
  | handler n => rfl
  | observer o =>
    have ho := hb.kept (o := o) (hk.resolve_right (by simp))
    simp only [coldOf, subscriptionOf, withEval, ho]

include h hz hb in
theorem coldOf_withEval_of_young {i : StreamId} {o : ObserverId} (hr : .stream i o ∈ b.reads)
    (ho : s.store.fresh ≤ o.number) : (s.withEval y z b).coldOf (.observer o) = b.store.labelOf i := by
  obtain ⟨x, hx, hd, hlabel⟩ := (isNew_of_read h hz hb hr ho).subscribed
  rw [← hlabel, coldOf_observer (s := s.withEval y z b) hx, hd]
  rfl

include h hz hb in
/-- An evaluation subscribes the observers that it opens. -/
theorem turnover_withEval (hknown : ∀ i o, .stream i o ∈ b.reads → i.number < b.store.fresh) :
    Turnover (openedIn b.store b.reads s.store.fresh) [] s (s.withEval y z b) := by
  refine .taking hb.fresh rfl ?old ?new ?kept (fun _ => hb.labels _) ?entries
  case old =>
    intro k label hk
    rw [coldOf_withEval_of_old hb (.inl (h.sinks hk)), hk]
  case new =>
    intro k label hk
    obtain ⟨i, o, rfl, hr, ho, hl⟩ := mem_openedIn.1 hk
    exact ⟨(coldOf_withEval_of_young h hz hb hr ho).trans hl, ho, (isNew_of_read h hz hb hr ho).old⟩
  case kept =>
    intro k label hk
    by_cases hold : k.number < s.store.fresh ∨ ∃ n, k = .handler n
    · exact .inl ((coldOf_withEval_of_old hb hold).symm.trans hk)
    · obtain ⟨hnot, hno⟩ := not_or.1 hold
      cases k with
      | handler n => exact absurd ⟨n, rfl⟩ hno
      | observer o =>
        have hthere : (b.store.observers.get? o).isSome := by
          cases ho : b.store.observers.get? o with
          | some x => rfl
          | none => simp [coldOf, subscriptionOf, withEval, ho] at hk
        obtain ⟨i, hr⟩ := read_of_young h hb hthere hnot
        have hl := (coldOf_withEval_of_young h hz hb hr (Nat.le_of_not_lt hnot)).symm.trans hk
        exact .inr (mem_openedIn.2 ⟨i, o, rfl, hr, Nat.le_of_not_lt hnot, hl⟩)
  case entries =>
    intro y' i o he
    rw [withEval, entryIn_insert] at he
    split at he
    next hy =>
      subst hy
      rcases hb.entered he with he | ⟨hr, hisnew⟩
      · exact .inl ((entryIn_of_get? hz _).trans he)
      · refine .inr ⟨⟨hknown i o hr, hisnew.old⟩, fun label hl => ?_⟩
        exact mem_openedIn.2 ⟨i, o, rfl, hr, hisnew.young, hl⟩
    · exact .inl he

end

/-- The observers that were read through are strays until somebody holds them. -/
theorem tends_withEval (hz : s.systems.get? y = some z) (hb : Eval.Opens { store := s.store, registry := z.registry } b)
    (hknown : ∀ i o, .stream i o ∈ b.reads → i.number < b.store.fresh) :
    Tends (openedIn b.store b.reads s.store.fresh) os (observersRead b.reads ++ os) s (s.withEval y z b) := by
  intro h
  have hturn := turnover_withEval h hz hb hknown
  have hholding : ∀ o, Holding (s.withEval y z b) o ↔ Holding s o := fun o => holding_congr rfl rfl rfl rfl
  refine ⟨⟨_, hturn⟩, h.turnover hturn (fun o ho => ?_) (fun o ho => ?_) (fun o x hx hd => ?_) (fun o ho => ?_)
    (fun _ => .inl) fun _ => .inl⟩
  · have hthere := h.present ((hholding o).1 ho)
    rwa [← hb.kept (h.observers hthere)] at hthere
  · by_cases hold : o.number < s.store.fresh
    · have hthere : (s.store.observers.get? o).isSome := by
        rw [← hb.kept hold]
        exact ho
      exact (h.held hthere).imp (hholding o).2 (List.mem_append_right _)
    · exact .inr (List.mem_append_left _ (mem_observersRead.2 (read_of_young h hb ho hold)))
  · by_cases hold : o.number < s.store.fresh
    · exact h.released ((hb.kept hold).symm.trans hx) hd
    · obtain ⟨i, hr⟩ := read_of_young h hb (Option.isSome_iff_exists.2 ⟨x, hx⟩) hold
      obtain ⟨x', hx', hlive, -⟩ := (isNew_of_read h hz hb hr (Nat.le_of_not_lt hold)).subscribed
      obtain rfl := Option.some.inj (hx'.symm.trans hx)
      rw [hlive] at hd
      cases hd
  · by_cases hold : o.number < s.store.fresh
    · exact .inr (Nat.lt_of_lt_of_le hold hb.fresh)
    · obtain ⟨i, hr⟩ := read_of_young h hb ho hold
      exact .inr (isNew_of_read h hz hb hr (Nat.le_of_not_lt hold)).old

/-- Those who were subscribed to cold streams are the observers that registries have for them. -/
def Handed (new : List (Sink × String)) (t : Session) : Prop :=
  ∀ k label, (k, label) ∈ new →
    ∃ o y i, k = .observer o ∧ t.systems.entryIn y i = some o ∧ t.store.labelOf i = some label

/-- The registry of a system has entered what it has opened. -/
theorem handed_openedIn (hentries : ∀ i o, .stream i o ∈ reads → t.systems.entryIn y i = some o) :
    Handed (openedIn t.store reads n) t := by
  intro k label hk
  obtain ⟨i, o, rfl, hr, -, hl⟩ := mem_openedIn.1 hk
  exact ⟨o, y, i, rfl, hentries i o hr, hl⟩

theorem tends_evaluate (h : Sound (· ∈ s.held) s) {scope : Scope} {host : Option Scope}
    (hscope : Within (· ∈ s.held) (sharedInScope scope))
    (hhost : ∀ x, host = some x → Within (· ∈ s.held) (sharedInScope x)) (y : SystemId) (flags : EvalFlags) (w : Watch)
    (e : Expr) {t : Session} {reads : List Read} {result : Except ExpressionError Value}
    (ht : s.evaluate y flags scope host w e = (t, reads, result)) :
    (∀ os, Tends (openedIn t.store reads s.store.fresh) os (observersRead reads ++ os) s t) ∧
      (∀ i o, .stream i o ∈ reads → t.systems.entryIn y i = some o) ∧ t.Readable reads := by
  unfold evaluate at ht
  split at ht
  · cases ht
    exact ⟨fun _ => .refl, nofun, nofun⟩
  next z hz =>
    let ctx : EvalContext := { flags, scope, host, converters := z.converters, alive := s.isAlive }
    let start : EvalState := { store := s.store, registry := z.registry }
    have hsound : Sound s.bare.hand s := h
    have halive : ∀ k, s.bare.hand (.stream k) → ctx.alive k = true := fun _ => isAlive_iff.2
    obtain ⟨g, -, hend, -⟩ := Moves.evaluating hsound hz halive
      ((isMade_rules (hand_levels ctx hscope hhost) (h.tame_of_get? hz)).evaluate e (fun _ _ => trivial) (w := w) rfl)
    cases ht
    have hread : ∀ i o, .stream i o ∈ ((e.evaluate ctx w).run start).2.reads →
        i.number < ((e.evaluate ctx w).run start).2.store.fresh ∧
          ((e.evaluate ctx w).run start).2.registry.entries.get? i = some o ∧
          ((e.evaluate ctx w).run start).2.store.isLive o = true := by
      intro i o hr
      obtain ⟨hhand, hget⟩ := hend.entries hr
      obtain ⟨he, hlive⟩ := Registry.get?_eq_some.1 hget
      exact ⟨hend.sound.old (hend.sound.known hhand), he, hlive⟩
    refine ⟨fun os => tends_withEval hz (Eval.opens_evaluate ctx w e start) fun i o hr => (hread i o hr).1,
      fun i o hr => ?_, fun r hr => ?_⟩
    · exact (entryIn_of_get? (get?_withEval ..) i).trans (hread i o hr).2.1
    · cases r with
      | property p n => trivial
      | stream i o => exact (hread i o hr).2.2

end Session

end DataBinding
