import DataBinding.Session.Lookup
import DataBinding.Proofs.Moves.Evaluate

/-!
# What the host means is in hand

Whatever the host names is in hand. A value that it writes may come with new objects, and nothing else is made
(`made_valueOf?`, `making_eq`).
-/

namespace DataBinding

namespace Session

variable {g g' : Ghost} {s s' : Session}

/-! ### Looking things up -/

theorem names_of_named? {k : Thing} {name : String} {i : Id k} (h : s.named? k name = some i) :
    s.names.get? ⟨k, name⟩ = some i.number := by
  obtain ⟨n, hn, rfl⟩ := Option.map_eq_some_iff.1 h
  exact hn

theorem Outside.object {H : Shared → Prop} (h : Outside H s) {name : String} {o : ObjectId}
    (ho : s.named? .object name = some o) : H (.object o) :=
  h.names (names_of_named? ho) (.object o) (by simp [sharedInName])

theorem Outside.stream {H : Shared → Prop} (h : Outside H s) {name : String} {i : StreamId}
    (hi : s.named? .stream name = some i) : H (.stream i) :=
  h.names (names_of_named? hi) (.stream i) (by simp [sharedInName])

theorem Outside.scope {H : Shared → Prop} (h : Outside H s) {name : String} {x : Scope} (hx : s.scope? name = some x) :
    Within H (sharedInScope x) := by
  obtain ⟨i, hi, hx⟩ := Option.bind_eq_some_iff.1 hx
  have := h.names (names_of_named? hi)
  simpa [sharedInName, hx] using this

theorem Outside.host {H : Shared → Prop} (h : Outside H s) {name? : Option String} {x? : Option Scope}
    (hx : s.host? name? = some x?) : ∀ x, x? = some x → Within H (sharedInScope x) := by
  rintro x rfl
  cases name? with
  | none => simp [host?] at hx
  | some name =>
    obtain ⟨z, hz, hzx⟩ := Option.map_eq_some_iff.1 hx
    obtain rfl := Option.some.inj hzx
    exact h.scope hz

theorem Outside.source {H : Shared → Prop} (h : Outside H s) {d : HostSource} {x : Source} (hx : s.source? d = some x) :
    Within H (sharedInSource x) := by
  cases d with
  | property object name =>
    obtain ⟨o, ho, rfl⟩ := Option.map_eq_some_iff.1 hx
    intro y hy
    obtain rfl := List.mem_singleton.1 hy
    exact h.object ho
  | observer name =>
    obtain ⟨o, ho, rfl⟩ := Option.map_eq_some_iff.1 hx
    exact fun _ hy => by cases hy
  | collection name =>
    obtain ⟨o, ho, rfl⟩ := Option.map_eq_some_iff.1 hx
    exact fun _ hy => by cases hy

/-! ### Making values -/

theorem Moves.newObject (ps : List (String × Value)) (h : ∀ e ∈ ps, Within g.hand (sharedIn e.2)) :
    Moves Making (g, s)
      ({ g with hand := fun z => g.hand z ∨ z = .object ⟨s.store.fresh⟩ },
        { s with store := (s.store.newObject (Table.ofList ps)).1 }) := by
  refine .of_move rfl (.newObject fun v hv => ?_)
  obtain ⟨k, hk⟩ := mem_values_ofList hv
  exact h (k, v) hk

mutual

/-- The value that a JSON value stands for is made of new objects. -/
theorem made_ofJson (s : Session) (g : Ghost) : ∀ (j : Json) (t : Store),
    ∃ g', Moves Making (g, { s with store := t }) (g', { s with store := (t.ofJson j).1 }) ∧
      Within g'.hand (sharedIn (t.ofJson j).2)
  | .null, t | .bool _, t | .string _, t => ⟨g, .refl, fun _ h => by simp [Store.ofJson, sharedIn] at h⟩
  | .number (.int n), t => by
    refine ⟨g, .refl, fun x h => ?_⟩
    simp only [Store.ofJson] at h
    split at h <;> cases h
  | .number (.float _), t => ⟨g, .refl, fun _ h => by simp [Store.ofJson, sharedIn] at h⟩
  | .array items, t => by
    obtain ⟨g', hm, hw⟩ := made_ofItems s g items t
    refine ⟨g', hm, ?_⟩
    simpa only [Store.ofJson, sharedIn, sharedInAll_eq, Within.flatMap] using hw
  | .object members, t => by
    obtain ⟨g', hm, hw⟩ := made_ofMembers s g members t
    refine ⟨_, hm.trans (.newObject _ hw), fun x hx => ?_⟩
    obtain rfl := List.mem_singleton.1 hx
    exact .inr rfl

theorem made_ofItems (s : Session) (g : Ghost) : ∀ (js : List Json) (t : Store),
    ∃ g', Moves Making (g, { s with store := t }) (g', { s with store := (t.ofItems js).1 }) ∧
      ∀ v ∈ (t.ofItems js).2, Within g'.hand (sharedIn v)
  | [], t => ⟨g, .refl, by simp [Store.ofItems]⟩
  | j :: js, t => by
    obtain ⟨g', hm, hw⟩ := made_ofJson s g j t
    obtain ⟨g'', hm', hw'⟩ := made_ofItems s g' js (t.ofJson j).1
    refine ⟨g'', hm.trans hm', fun v hv => ?_⟩
    rcases List.mem_cons.1 hv with rfl | hv
    · exact hw.mono fun _ => hm'.making.hand_mono
    · exact hw' v hv

theorem made_ofMembers (s : Session) (g : Ghost) : ∀ (ms : List (String × Json)) (t : Store),
    ∃ g', Moves Making (g, { s with store := t }) (g', { s with store := (t.ofMembers ms).1 }) ∧
      ∀ e ∈ (t.ofMembers ms).2, Within g'.hand (sharedIn e.2)
  | [], t => ⟨g, .refl, by simp [Store.ofMembers]⟩
  | (k, j) :: ms, t => by
    obtain ⟨g', hm, hw⟩ := made_ofJson s g j t
    obtain ⟨g'', hm', hw'⟩ := made_ofMembers s g' ms (t.ofJson j).1
    refine ⟨g'', hm.trans hm', fun v hv => ?_⟩
    rcases List.mem_cons.1 hv with rfl | hv
    · exact hw.mono fun _ => hm'.making.hand_mono
    · exact hw' v hv

end

theorem Sound.making (h : Sound g.hand s) (hm : Moves Making (g, s) (g', s')) : Sound g'.hand s' := h.moves hm

mutual

/-- A value that the host writes is in hand. -/
theorem made_valueOf? : ∀ (u : HostValue) {g : Ghost} {s s' : Session} {v : Value}, Sound g.hand s →
    s.valueOf? u = some (s', v) → ∃ g', Moves Making (g, s) (g', s') ∧ Within g'.hand (sharedIn v)
  | .undefined, g, s, s', v, _, hv | .null, g, s, s', v, _, hv | .bool _, g, s, s', v, _, hv
  | .int _, g, s, s', v, _, hv | .float _, g, s, s', v, _, hv | .text _, g, s, s', v, _, hv => by
    obtain ⟨rfl, rfl⟩ := Prod.mk.inj (Option.some.inj hv)
    exact ⟨g, .refl, fun _ h => by cases h⟩
  | .array items, g, s, s', v, h, hv => by
    simp only [valueOf?] at hv
    obtain ⟨⟨t, vs⟩, hvs, hv⟩ := Option.bind_eq_some_iff.1 hv
    obtain ⟨rfl, rfl⟩ := Prod.mk.inj (Option.some.inj hv)
    obtain ⟨g', hm, hw⟩ := made_valuesOf? items h hvs
    refine ⟨g', hm, ?_⟩
    simpa only [sharedIn, sharedInAll_eq, Within.flatMap] using hw
  | .object name, g, s, s', v, h, hv => by
    obtain ⟨o, ho, hv⟩ := Option.map_eq_some_iff.1 hv
    obtain ⟨rfl, rfl⟩ := Prod.mk.inj hv
    refine ⟨g, .refl, fun x hx => ?_⟩
    obtain rfl := List.mem_singleton.1 hx
    exact h.outside.object ho
  | .stream name, g, s, s', v, h, hv => by
    obtain ⟨o, ho, hv⟩ := Option.map_eq_some_iff.1 hv
    obtain ⟨rfl, rfl⟩ := Prod.mk.inj hv
    refine ⟨g, .refl, fun x hx => ?_⟩
    obtain rfl := List.mem_singleton.1 hx
    exact h.outside.stream ho
  | .json j, g, s, s', v, h, hv => by
    simp only [valueOf?] at hv
    obtain ⟨rfl, rfl⟩ := Prod.mk.inj (Option.some.inj hv)
    exact made_ofJson s g j s.store

theorem made_valuesOf? : ∀ (us : List HostValue) {g : Ghost} {s s' : Session} {vs : List Value}, Sound g.hand s →
    s.valuesOf? us = some (s', vs) → ∃ g', Moves Making (g, s) (g', s') ∧ ∀ v ∈ vs, Within g'.hand (sharedIn v)
  | [], g, s, s', vs, h, hv => by
    obtain ⟨rfl, rfl⟩ := Prod.mk.inj (Option.some.inj hv)
    exact ⟨g, .refl, by simp⟩
  | u :: us, g, s, s', vs, h, hv => by
    simp only [valuesOf?] at hv
    obtain ⟨⟨t, v⟩, hv1, hv⟩ := Option.bind_eq_some_iff.1 hv
    obtain ⟨⟨t', ws⟩, hv2, hv⟩ := Option.bind_eq_some_iff.1 hv
    obtain ⟨rfl, rfl⟩ := Prod.mk.inj (Option.some.inj hv)
    obtain ⟨g', hm, hw⟩ := made_valueOf? u h hv1
    obtain ⟨g'', hm', hw'⟩ := made_valuesOf? us (h.making hm) hv2
    refine ⟨g'', hm.trans hm', fun v hv => ?_⟩
    rcases List.mem_cons.1 hv with rfl | hv
    · exact hw.mono fun _ => hm'.making.hand_mono
    · exact hw' v hv

end

theorem made_propertiesOf? : ∀ (us : List (String × HostValue)) {g : Ghost} {s s' : Session}
    {ps : List (String × Value)}, Sound g.hand s → s.propertiesOf? us = some (s', ps) →
      ∃ g', Moves Making (g, s) (g', s') ∧ ∀ e ∈ ps, Within g'.hand (sharedIn e.2)
  | [], g, s, s', ps, h, hv => by
    obtain ⟨rfl, rfl⟩ := Prod.mk.inj (Option.some.inj hv)
    exact ⟨g, .refl, by simp⟩
  | (k, u) :: us, g, s, s', ps, h, hv => by
    simp only [propertiesOf?] at hv
    obtain ⟨⟨t, v⟩, hv1, hv⟩ := Option.bind_eq_some_iff.1 hv
    obtain ⟨⟨t', ws⟩, hv2, hv⟩ := Option.bind_eq_some_iff.1 hv
    obtain ⟨rfl, rfl⟩ := Prod.mk.inj (Option.some.inj hv)
    obtain ⟨g', hm, hw⟩ := made_valueOf? u h hv1
    obtain ⟨g'', hm', hw'⟩ := made_propertiesOf? us (h.making hm) hv2
    refine ⟨g'', hm.trans hm', fun v hv => ?_⟩
    rcases List.mem_cons.1 hv with rfl | hv
    · exact hw.mono fun _ => hm'.making.hand_mono
    · exact hw' v hv

theorem made_eventOf? {u : HostEvent} {e : StreamEvent} (h : Sound g.hand s) (he : s.eventOf? u = some (s', e)) :
    ∃ g', Moves Making (g, s) (g', s') ∧ Within g'.hand (sharedInEvent e) := by
  cases u with
  | next v =>
    obtain ⟨⟨t, w⟩, hw, he⟩ := Option.map_eq_some_iff.1 he
    obtain ⟨rfl, rfl⟩ := Prod.mk.inj he
    exact made_valueOf? v h hw
  | error message =>
    obtain ⟨rfl, rfl⟩ := Prod.mk.inj (Option.some.inj he)
    exact ⟨g, .refl, fun _ h => by cases h⟩
  | complete =>
    obtain ⟨rfl, rfl⟩ := Prod.mk.inj (Option.some.inj he)
    exact ⟨g, .refl, fun _ h => by cases h⟩

theorem made_eventsOf? : ∀ (us : List HostEvent) {g : Ghost} {s s' : Session} {es : List StreamEvent}, Sound g.hand s →
    s.eventsOf? us = some (s', es) → ∃ g', Moves Making (g, s) (g', s') ∧ ∀ e ∈ es, Within g'.hand (sharedInEvent e)
  | [], g, s, s', es, h, hv => by
    obtain ⟨rfl, rfl⟩ := Prod.mk.inj (Option.some.inj hv)
    exact ⟨g, .refl, by simp⟩
  | u :: us, g, s, s', es, h, hv => by
    simp only [eventsOf?] at hv
    obtain ⟨⟨t, e⟩, hv1, hv⟩ := Option.bind_eq_some_iff.1 hv
    obtain ⟨⟨t', ws⟩, hv2, hv⟩ := Option.bind_eq_some_iff.1 hv
    obtain ⟨rfl, rfl⟩ := Prod.mk.inj (Option.some.inj hv)
    obtain ⟨g', hm, hw⟩ := made_eventOf? h hv1
    obtain ⟨g'', hm', hw'⟩ := made_eventsOf? us (h.making hm) hv2
    refine ⟨g'', hm.trans hm', fun v hv => ?_⟩
    rcases List.mem_cons.1 hv with rfl | hv
    · exact hw.mono fun _ => hm'.making.hand_mono
    · exact hw' v hv

/-! ### What making objects leaves as it was -/

/-- Making objects changes the objects and the identities that are taken, and nothing else. -/
theorem making_eq (hm : Moves Making (g, s) (g', s')) :
    ∃ objects fresh, s' = { s with store := { s.store with objects, fresh } } ∧ s.store.fresh ≤ fresh := by
  generalize ha : (g, s) = a at hm
  generalize hb : (g', s') = b at hm
  induction hm generalizing g' s' with
  | refl =>
    obtain ⟨rfl, rfl⟩ := Prod.mk.inj (ha.trans hb.symm)
    exact ⟨_, _, rfl, Nat.le_refl _⟩
  | tail _ hm ih =>
    obtain ⟨e, rfl, hm⟩ := hm
    cases hm with
    | newObject h =>
      obtain ⟨objects, fresh, rfl, hf⟩ := ih rfl
      obtain ⟨-, rfl⟩ := Prod.mk.inj hb
      exact ⟨_, _, rfl, Nat.le_succ_of_le hf⟩

/-- What was held is held after objects were made. -/
theorem held_newObject (h : Sound g.hand s) (ps : Table String Value) {x : Shared} (hx : x ∈ s.held) :
    x ∈ ({ s with store := (s.store.newObject ps).1 } : Session).held := by
  have hne : ∀ {o : ObjectId}, s.store.Knows (.object o) → (⟨s.store.fresh⟩ : ObjectId) ≠ o := by
    rintro o ho rfl
    exact Nat.lt_irrefl _ (h.old ho)
  refine mem_held_of_supported (X := (· ∈ s.held)) ?_ ?_ hx
  · rintro (o | i) hy
    · have := knows_of_mem_held hy
      simpa [Store.Knows, Store.newObject, Table.get?_insert, hne this] using this
    · have hk : s.store.Knows (.stream i) := knows_of_mem_held hy
      exact hk
  · intro y hy
    rcases supported_held s y hy with ho | ⟨z, hz, hyz⟩
    · exact .inl ho
    · refine .inr ⟨z, hz, ?_⟩
      cases z with
      | object o =>
        simpa [contents, Store.object, Store.newObject, Table.get?_insert, hne (knows_of_mem_held hz)] using hyz
      | stream i => exact hyz

/-- Streams in hand are alive after objects were made if they were before. -/
theorem isAlive_making (h : Sound g.hand s) (ha : ∀ k, g.hand (.stream k) → s.isAlive k = true)
    (hm : Moves Making (g, s) (g', s')) : ∀ k, g'.hand (.stream k) → s'.isAlive k = true := by
  generalize hb : (g', s') = b at hm
  induction hm generalizing g' s' with
  | refl =>
    obtain ⟨rfl, rfl⟩ := Prod.mk.inj hb
    exact ha
  | tail hms hm ih =>
    obtain ⟨e, rfl, hm⟩ := hm
    cases hm with
    | newObject hp =>
      obtain ⟨rfl, rfl⟩ := Prod.mk.inj hb
      intro k hk
      exact isAlive_iff.2 (held_newObject (h.moves hms) _ (isAlive_iff.1 (ih rfl k (hk.resolve_right (by simp)))))

end Session

end DataBinding
