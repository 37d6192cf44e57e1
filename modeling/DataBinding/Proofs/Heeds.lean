import DataBinding.Proofs.Evaluations
import DataBinding.Proofs.Ledger

/-!
# Nothing escapes a binding

Whatever happens while a binding is not evaluated, the binding is left as it is, and so is the value of each source
that it observes, unless it is going to be told of the change (`Heeds`). There is a lemma for each command and for each
task; bindings are taken to be the only listeners, and a property that is observed not to be given another value that
counts as equal to the one before (`Exact`).
-/

namespace DataBinding

namespace Session

variable {W : Source → Prop} {g : Ghost} {s s' t : Session} {b c : BindingId} {x : Binding} {r : Reaction} {o : ObserverId}

/-- The binding is left alone but for changes that it is going to be told of, unless it is not bound any more. -/
def Heeds (c : BindingId) (s : Session) (r : Reaction) : Prop :=
  (∀ x, r.session.bindings.get? c = some x → x.isBound = false) ∨
    ∃ W, Leaves W s r.session c ∧
      ∀ x e, s.bindings.get? c = some x → e ∈ x.observations.entries → W e.source → ∃ t ∈ r.tasks, t.Awaits c

/-- No property that the binding observes is given another value that counts as equal. -/
def Exact (c : BindingId) (s t : Session) : Prop :=
  ∀ x p n, s.bindings.get? c = some x → x.observations.covers (.property p n) = true →
    (s.store.property p n).equals (t.store.property p n) = true → t.store.property p n = s.store.property p n

namespace Heeds

theorem of_leaves (h : Leaves (fun _ => False) s r.session c) : Heeds c s r :=
  .inr ⟨_, h, fun _ _ _ _ hw => hw.elim⟩

theorem of_spared (h : Spared (fun _ => False) s r.session c) : Heeds c s r := by
  rcases h with h | hnone
  · exact of_leaves h
  · refine .inl fun x hx => ?_
    rw [hnone] at hx
    cases hx

/-- What has left the binding alone goes before. -/
theorem after (h : Leaves (fun _ => False) s s' c) (h' : Heeds c s' r) : Heeds c s r := by
  rcases h' with hunbound | ⟨W, hleaves, hawaits⟩
  · exact .inl hunbound
  · refine .inr ⟨W, (h.mono fun _ hw => hw.elim).trans hleaves, fun x e hx he hw => ?_⟩
    obtain ⟨z, hz, hout⟩ := h.get? hx
    exact hawaits z e hz (Binding.observations_of_outline hout ▸ he) hw

theorem andThen (h : Heeds c s r) (ts : List Task) : Heeds c s (r.andThen ts) := by
  refine h.imp_right fun ⟨W, hleaves, hawaits⟩ => ⟨W, hleaves, fun x e hx he hw => ?_⟩
  obtain ⟨t, ht, htc⟩ := hawaits x e hx he hw
  exact ⟨t, List.mem_append_left _ ht, htc⟩

end Heeds

/-! ### What is registered -/

theorem Balanced.listed (h : Balanced true s) (c : BindingId) : s.Listed c := by
  intro x hx e he
  have hlisted : (e.token, Listener.binding c) ∈ (s.store.listeners e.source).entries :=
    (h.owes c).registered.2 ⟨c, rfl, .inl ⟨x, e, hx, he, rfl, rfl⟩⟩
  refine ⟨hlisted, ?_⟩
  cases hsource : e.source with
  | observer o =>
    rw [hsource] at hlisted
    exact ((h.owes c).heard rfl o).2 (.inl (List.ne_nil_of_mem hlisted))
  | property | collection => trivial

/-! ### Letting go -/

theorem Balanced.spared_letGo (h : Balanced true s) (q : Ref) (c : BindingId) : Spared W s (s.letGo q) c := by
  by_cases hq : q.thing = .record
  · -- the host has no records
    have hsame : s.letGo q = s := by
      unfold Session.letGo
      split
      · rfl
      · simp only [hq, h.records]
    rw [hsame]
    exact .inl .refl
  · exact Session.spared_letGo h.listed hq c

theorem Balanced.spared_setName (h : Balanced true s) (name : String) (q : Ref) (c : BindingId) :
    Spared W s (s.setName name q) c := by
  have hname : Leaves W s { s with names := s.names.insert ⟨q.thing, name⟩ q.number } c := .of_store rfl rfl rfl rfl
  have hnamed : Balanced true { s with names := s.names.insert ⟨q.thing, name⟩ q.number } :=
    h.aside (Nat.le_refl _) rfl rfl rfl rfl rfl rfl
  unfold Session.setName
  dsimp only
  split
  · exact .inl hname
  · exact .of_leaves hname (hnamed.spared_letGo _ c)

/-- What was made is given its name. -/
theorem heeds_setName (hs : Balanced true s') (h : Leaves (fun _ => False) s s' c) (name : String) (q : Ref) :
    Heeds c s { session := s'.setName name q } :=
  .after h (.of_spared (hs.spared_setName name q c))

/-! ### Writing -/

theorem heeds_notify (s : Session) (z : Source) (new previous : Value) (c : BindingId) :
    Heeds c s (s.notify z new previous) := .of_leaves (.notify ..)

/-- A property is written after nothing else has been done that the binding could see. -/
theorem heeds_write (h : Leaves (fun _ => False) s s' c) (hl : s.Listed c) {p : ObjectId} {n : String} {v : Value}
    (he : Exact c s (s'.write p n v).session) : Heeds c s (s'.write p n v) := by
  refine .after h ?_
  by_cases hobserved : ∃ x, s.bindings.get? c = some x ∧ x.observations.covers (.property p n) = true
  · obtain ⟨x, hx, hcovers⟩ := hobserved
    by_cases hchanges : (s'.store.object p).changes n v = true
    · -- the binding is among the listeners that are told
      refine .inr ⟨(· = .property p n), .write (.inl rfl), fun z e hz hmem hsource => ?_⟩
      exact awaits_write hchanges hz hmem (h.listed hl z hz e hmem) hsource
    · obtain ⟨e, hmem, hsource⟩ := Observations.covers_iff.1 hcovers
      have hsame : s'.store.property p n = s.store.property p n := h.property ((hl x hx e hmem).knows hsource) id
      have hequal : (s'.store.property p n).equals v = true := by simpa [Object.changes, Store.property] using hchanges
      have hv := he x p n hx hcovers
      rw [property_write, ← hsame] at hv
      exact .of_leaves (.write (.inr (hv hequal).symm))
  · refine .inr ⟨(· = .property p n), .write (.inl rfl), fun z e hz hmem hsource => absurd ?_ hobserved⟩
    have hsame := h.same
    rw [hz] at hsame
    obtain ⟨x, hx, hout⟩ := Option.map_eq_some_iff.1 hsame.symm
    rw [← Binding.observations_of_outline hout] at hmem
    exact ⟨x, hx, Observations.covers_iff.2 ⟨e, hmem, hsource⟩⟩

/-! ### Other bindings -/

theorem Leaves.readAgain (hs : Sound (· ∈ s.held) s) (hd : Dated s) (hx : s.bindings.get? b = some x) {y : Bound}
    (hy : x.state = some y) (hbc : b ≠ c) (z : Binding) : Leaves W s (s.readAgain b z y).1 c := by
  have hround : Leaves W s (s.nextRound b) c := .modifyBinding (.inl hbc)
  have heval : Leaves W (s.nextRound b) ((s.nextRound b).evaluateBound z y).1 c :=
    .evaluateBound (hs.tidy_nextRound hd b) z y
  have hread := hs.hasRead_nextRound hx hy z
  rw [readAgain_eq]
  exact hround.trans (heval.trans (.observe hread.readable hbc (get?_evaluateBound hx z y)))

/-- Another binding releases what it does not read any more, and writes its slot. -/
theorem heeds_writeTarget (h : Leaves (fun _ => False) s s' c) (hb : Balanced true s)
    (hbc : b ≠ c) {z : Binding} {v : Value} (he : Exact c s (s'.writeTarget b z v).session) :
    Heeds c s (s'.writeTarget b z v) := by
  have hvalue : Leaves (fun _ => False) s' (s'.modifyBinding b fun x => { x with value := v }) c := .modifyBinding (.inl hbc)
  exact heeds_write (h.trans hvalue) (hb.listed c) he

/-- Another binding is told of a change. -/
theorem InOrder.heeds_refresh (h : InOrder true s) (hbc : b ≠ c) (he : Exact c s (s.refresh b).session) :
    Heeds c s (s.refresh b) := by
  cases hx : s.bindings.get? b with
  | none =>
    simp only [refresh, hx]
    exact .of_leaves .refl
  | some x =>
    cases hy : x.state with
    | none =>
      simp only [refresh, hx, hy]
      exact .of_leaves .refl
    | some y =>
      have hread : Leaves (fun _ => False) s (s.readAgain b x y).1 c := .readAgain h.sound h.dated hx hy hbc x
      have hbalanced := h.balanced.readAgain h.sound h.dated hx hy x
      unfold refresh at he ⊢
      simp only [hx, hy] at he ⊢
      cases ht : s.readAgain b x y with
      | mk t result =>
        rw [ht] at hread hbalanced he
        cases result with
        | error e => exact .of_leaves (hread.trans (.modifyBinding (.inl hbc)))
        | ok v =>
          have hclear : Leaves (fun _ => False) t (t.clearStale b) c :=
            .clearStale (hbalanced.listed b) (hbalanced.listed c) hbc
          exact heeds_writeTarget (hread.trans (hclear.trans (.modifyBinding (.inl hbc)))) h.balanced hbc he

/-- Another binding is bound. -/
theorem InOrder.heeds_bind (h : InOrder true s) (hbc : b ≠ c) (hx : s.bindings.get? b = some x) {y : Bound}
    (hscope : Within (· ∈ s.held) (sharedInScope y.scope))
    (hhost : ∀ z, y.host = some z → Within (· ∈ s.held) (sharedInScope z)) (he : Exact c s (s.bind b x y).1.session) :
    Heeds c s (s.bind b x y).1 := by
  cases hnew : x.state.any fun z => z.scope.id = y.scope.id with
  | true =>
    rw [bind_of_bound hnew]
    exact .of_leaves .refl
  | false =>
    -- the other binding is unbound first, and lets go of what it observed before
    obtain ⟨hbound, hs', hd', z, hz, -, hy⟩ := h.balanced.boundTo h.sound h.dated hx hscope hhost
    have hunbind : Leaves (fun _ => False) s (s.unbind b) c := .unbind (h.balanced.listed b) (h.balanced.listed c) hbc
    have hstate : Leaves (fun _ => False) s (s.boundTo b y) c := hunbind.trans (.modifyBinding (.inl hbc))
    have hread := hstate.trans (.readAgain hs' hd' hz hy hbc x)
    have hbalanced := hbound.readAgain hs' hd' hz hy x
    cases ht : (s.boundTo b y).readAgain b x y with
    | mk t result =>
      rw [ht] at hread hbalanced
      cases result with
      | ok v =>
        rw [bind_of_ok hnew ht] at he ⊢
        have hclear : Leaves (fun _ => False) t (t.clearStale b) c :=
          .clearStale (hbalanced.listed b) (hbalanced.listed c) hbc
        exact heeds_writeTarget (hread.trans hclear) h.balanced hbc he
      | error e =>
        rw [bind_of_error hnew ht]
        have hnone : Leaves (fun _ => False) t (t.modifyBinding b fun x => { x with state := none }) c :=
          .modifyBinding (.inl hbc)
        have hlisted : Listed (t.modifyBinding b fun x => { x with state := none }) b :=
          listed_modifyBinding (hbalanced.listed b) fun x e he => ⟨e, he, rfl, rfl⟩
        exact .of_leaves (hread.trans (hnone.trans (.clearObservations hlisted (hnone.listed (hbalanced.listed c)) hbc)))

/-! ### Sinks -/

theorem InOrder.heeds_receive (h : InOrder true s) (e : StreamEvent) (k : Sink) (c : BindingId) :
    Heeds c s (s.receive e k) := by
  cases k with
  | observer o =>
    cases hd : s.store.observers.get? o with
    | none =>
      simp only [receive, hd]
      exact .of_leaves .refl
    | some d =>
      have htold : Leaves (· = .observer o) s { s with store := s.store.setObserver o (d.receive e).1 } c := .told hd e rfl
      simp only [receive, hd]
      cases hchange : (d.receive e).2 with
      | none =>
        have hsame := Observer.value_receive_of_none hchange
        refine .of_leaves ⟨rfl, id, fun _ _ => rfl, htold.kept, fun {x e' p} hx he hh hsource _ => ?_⟩
        by_cases hop : p = o
        · subst hop
          simp [Eval.cached, Store.setObserver, Table.get?_insert, hd, hsame]
        · exact htold.cached hx he hh hsource fun heq => hop (Source.observer.inj heq)
      | some change =>
        obtain ⟨new, previous⟩ := change
        refine (Heeds.andThen ?_ _)
        refine .inr ⟨(· = .observer o), htold.trans (.notify ..), fun x e' hx he hsource => ?_⟩
        have hholds := htold.kept hx he (h.balanced.listed c x hx e' he)
        exact awaits_notify (s := { s with store := s.store.setObserver o (d.receive e).1 }) hx hholds hsource ..
  | handler k =>
    have hnote : ∀ l : String, Leaves (fun _ => False) s (s.noteEvent l e) c := by
      intro l
      cases e <;> exact .of_store rfl rfl rfl rfl
    cases hk : s.handlers.get? k with
    | none =>
      simp only [receive, hk]
      exact .of_leaves .refl
    | some w =>
      simp only [receive, hk]
      split
      · exact .of_leaves (hnote _)
      · exact .of_leaves ((hnote _).trans (.of_store rfl rfl rfl rfl))

end Session

end DataBinding
