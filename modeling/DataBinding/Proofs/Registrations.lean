import DataBinding.Proofs.Moves.React
import DataBinding.Proofs.Replay

/-!
# Registrations

A binding is registered with every source that its record has an entry for (`Holds`), and a registration stays until its
owner gives it up: other bindings may come and go, be evaluated and released, and what they do leaves it, its source and
the value of its source alone. `Leaves` says so of a binding and two sessions; there is a lemma for each thing that a
session does.
-/

namespace DataBinding

/-- A notification is still to be told to the binding. -/
def Task.Awaits (c : BindingId) : Task → Prop
  | .notify _ _ _ rest => .binding c ∈ rest
  | _ => False

/-- A binding without what it was last given and what last went wrong. -/
def Binding.outline (x : Binding) : Binding := { x with value := .undefined, lastError := none }

theorem Binding.observations_of_outline {x z : Binding} (h : z.outline = x.outline) : z.observations = x.observations :=
  show z.outline.observations = x.outline.observations from congrArg Binding.observations h

/-- A token is given to one listener only. -/
theorem Listeners.eq_of_token (ls : Listeners) {n : Nat} {l l' : Listener} (h : (n, l) ∈ ls.entries)
    (h' : (n, l') ∈ ls.entries) : l = l' := by
  have hne : ls.entries.Pairwise fun a b => a.1 = b.1 → a = b :=
    ls.ascending.imp fun hlt he => absurd he (Nat.ne_of_lt hlt)
  have hne' : ls.entries.Pairwise fun a b => b.1 = a.1 → b = a :=
    ls.ascending.imp fun hlt he => absurd he.symm (Nat.ne_of_lt hlt)
  exact congrArg Prod.snd (hne.forall_of_forall_of_flip (fun _ _ _ => rfl) hne' h h' rfl)

namespace Store

variable {s t : Store} {f : List (Nat × Listener) → List (Nat × Listener)}

/-! ### Listening, and leaving again -/

/-- The store `t` is `s` but for registrations. -/
structure Resembles (s t : Store) : Prop where
  properties (p : ObjectId) : (t.object p).properties = (s.object p).properties
  cached (o : ObserverId) : Eval.cached t o = Eval.cached s o
  live (o : ObserverId) : t.isLive o = s.isLive o
  knows {p : ObjectId} : s.Knows (.object p) → t.Knows (.object p)

theorem Resembles.refl : s.Resembles s := ⟨fun _ => rfl, fun _ => rfl, fun _ => rfl, id⟩

theorem Resembles.trans {u : Store} (h : s.Resembles t) (h' : t.Resembles u) : s.Resembles u where
  properties p := (h'.properties p).trans (h.properties p)
  cached o := (h'.cached o).trans (h.cached o)
  live o := (h'.live o).trans (h.live o)
  knows hp := h'.knows (h.knows hp)

/-- The registrations of the source `x` are changed by `f`, and nothing else is. -/
structure Relists (f : List (Nat × Listener) → List (Nat × Listener)) (x : Source) (s t : Store) : Prop
    extends Resembles s t where
  entries (z : Source) : (t.listeners z).entries = if x = z then f (s.listeners z).entries else (s.listeners z).entries

theorem knows_setObject (s : Store) (p : ObjectId) (x : Object) {q : ObjectId} (h : s.Knows (.object q)) :
    (s.setObject p x).Knows (.object q) := by
  simp only [Knows, setObject, Table.get?_insert]
  split
  · rfl
  · exact h

theorem Relists.setObject {p : ObjectId} {n : String} {x : Object} (hp : x.properties = (s.object p).properties)
    (hl : ∀ m, ((x.listeners.get? m).getD {}).entries =
      if n = m then f (s.listeners (.property p m)).entries else (s.listeners (.property p m)).entries) :
    Relists f (.property p n) s (s.setObject p x) where
  entries z := by
    cases z with
    | property q m =>
      simp only [listeners, object_setObject, Source.property.injEq]
      by_cases hpq : p = q
      · subst hpq
        simpa [listeners] using hl m
      · simp [hpq]
    | observer | collection => simp [listeners, Store.setObject]
  properties q := by
    rw [object_setObject]
    split
    next h => rw [hp, h]
    · rfl
  cached _ := rfl
  live _ := rfl
  knows := knows_setObject s p x

theorem Relists.modifyObserver {o : ObserverId} {g : Listeners → Listeners}
    (hg : ∀ x, s.observers.get? o = some x → (g x.listeners).entries = f x.listeners.entries)
    (ho : s.observers.get? o = none → f [] = []) :
    Relists f (.observer o) s
      { s with observers := s.observers.modify o fun x => { x with listeners := g x.listeners } } where
  entries z := by
    cases z with
    | observer o' =>
      simp only [listeners, Table.get?_modify, Source.observer.injEq]
      by_cases hoo : o = o'
      · subst hoo
        cases h : s.observers.get? o with
        | none => simpa using (ho h).symm
        | some x => simpa using hg x h
      · simp [hoo]
    | property | collection => simp [listeners, object]
  properties _ := rfl
  cached o' := by
    simp only [Eval.cached, Table.get?_modify]
    by_cases hoo : o = o'
    · subst hoo
      cases s.observers.get? o <;> simp
    · simp [hoo]
  live o' := by
    simp only [isLive, Table.get?_modify]
    by_cases hoo : o = o'
    · subst hoo
      cases s.observers.get? o <;> simp [Observer.isDestroyed]
    · simp [hoo]
  knows h := h

theorem Relists.setCollections {c : CollectionId} {t : Table CollectionId Listeners}
    (ht : ∀ d, ((t.get? d).getD {}).entries =
      if c = d then f (s.listeners (.collection d)).entries else (s.listeners (.collection d)).entries) :
    Relists f (.collection c) s { s with collections := t } where
  entries z := by
    cases z with
    | collection d => simpa [listeners] using ht d
    | property | observer => simp [listeners, object]
  properties _ := rfl
  cached _ := rfl
  live _ := rfl
  knows h := h

/-- The one registration is taken away. -/
theorem relists_unlisten (s : Store) (token : Nat) (x : Source) :
    Relists (List.filter fun e => e.1 != token) x s (s.unlisten token x) := by
  cases x with
  | property p n =>
    refine .setObject (Object.properties_update (u := .unwatch n token) nofun) fun m => ?_
    refine (Object.entries_unwatch _ n token m).trans ?_
    split
    next hm => exact hm ▸ rfl
    · rfl
  | observer o => exact .modifyObserver (fun _ _ => rfl) fun _ => rfl
  | collection c =>
    refine .setCollections fun d => ?_
    simp only [Table.get?_modify, listeners]
    by_cases hcd : c = d
    · subst hcd
      cases s.collections.get? c <;> simp [Listeners.remove, Listeners.filter]
    · simp [hcd]

/-- The listeners that are gone are forgotten. -/
theorem relists_sweep (s : Store) (alive : Listener → Bool) (x : Source) :
    Relists (List.filter fun e => alive e.2) x s (s.sweep alive x) := by
  cases x with
  | property p n =>
    refine .setObject rfl fun m => ?_
    simp only [Object.sweep, Table.get?_modify, listeners]
    by_cases hnm : n = m
    · subst hnm
      cases (s.object p).listeners.get? n <;> simp [Listeners.sweep, Listeners.filter]
    · simp [hnm]
  | observer o => exact .modifyObserver (fun _ _ => rfl) fun _ => rfl
  | collection c =>
    refine .setCollections fun d => ?_
    simp only [Table.get?_modify, listeners]
    by_cases hcd : c = d
    · subst hcd
      cases s.collections.get? c <;> simp [Listeners.sweep, Listeners.filter]
    · simp [hcd]

/-- Whether there is such a source: an observer has to be live. -/
def Has (s : Store) : Source → Prop
  | .observer o => s.isLive o = true
  | .property .. | .collection _ => True

/-- A listener is registered after all others. -/
theorem relists_listen (l : Listener) {x : Source} (hx : s.Has x) :
    Relists (· ++ [((s.listen l x).2, l)]) x s (s.listen l x).1 := by
  cases x with
  | property p n =>
    refine .setObject rfl fun m => ?_
    simp only [Table.get?_insert, listeners]
    by_cases hnm : n = m
    · subst hnm
      simp [listen, Object.watch, Listeners.add]
    · simp [hnm]
  | observer o =>
    obtain ⟨x, hx, -⟩ := isLive_iff.1 hx
    have hlisten : s.listen l (.observer o) =
        ({ s with observers := s.observers.modify o fun x => { x with listeners := (x.listeners.add l).1 } },
          x.listeners.nextToken) := by
      simp only [listen, hx, Table.modify]
      rfl
    rw [hlisten]
    refine Relists.modifyObserver (g := fun ls => (ls.add l).1) (fun z hz => ?_) fun hn => ?_
    · obtain rfl : x = z := Option.some.inj (hx.symm.trans hz)
      rfl
    · rw [hx] at hn
      cases hn
  | collection c =>
    refine .setCollections fun d => ?_
    simp only [Table.get?_insert, listeners]
    by_cases hcd : c = d
    · subst hcd
      simp [listen, Listeners.add]
    · simp [hcd]

/-- The binding has the registration of the entry, and the source of the entry is there. -/
structure Holds (s : Store) (b : BindingId) (e : Observation) : Prop where
  listed : (e.token, Listener.binding b) ∈ (s.listeners e.source).entries
  has : s.Has e.source

theorem Holds.congr {b : BindingId} {e : Observation} (h : s.Holds b e)
    (hl : (e.token, Listener.binding b) ∈ (s.listeners e.source).entries →
      (e.token, Listener.binding b) ∈ (t.listeners e.source).entries)
    (ho : ∀ o, e.source = .observer o → s.isLive o = true → t.isLive o = true) : t.Holds b e := by
  refine ⟨hl h.listed, ?_⟩
  have hhas := h.has
  cases hsource : e.source with
  | observer o =>
    rw [hsource] at hhas
    exact ho o hsource hhas
  | property | collection => trivial

/-- A property of no object has no listeners. -/
theorem Holds.knows {b : BindingId} {e : Observation} (h : s.Holds b e) {p : ObjectId} {n : String}
    (he : e.source = .property p n) : s.Knows (.object p) := by
  have hl := h.listed
  rw [he] at hl
  refine Classical.byContradiction fun hk => ?_
  have hnone : s.objects.get? p = none := by simpa [Knows] using hk
  simp [listeners, object, hnone] at hl

theorem Relists.holds {x : Source} (h : Relists f x s t) {b : BindingId} {e : Observation}
    (hf : x = e.source → (e.token, Listener.binding b) ∈ (s.listeners e.source).entries →
      (e.token, Listener.binding b) ∈ f (s.listeners e.source).entries) (he : s.Holds b e) : t.Holds b e := by
  refine he.congr (fun hl => ?_) fun o _ ho => by rwa [h.live]
  rw [h.entries]
  split
  next hx => exact hf hx hl
  · exact hl

end Store

/-! ### Entering what was read -/

namespace Observations

variable {r : Observations} {s : Store} {l : Listener} {x z : Source}

/-- The latest round has read the source. -/
def Stamped (r : Observations) (x : Source) : Prop := ∃ e ∈ r.entries, e.source = x ∧ e.version = r.version

theorem covers_iff : r.covers x = true ↔ ∃ e ∈ r.entries, e.source = x := by
  simp [covers]

/-- The fresh part of a record has what the latest round has read. -/
theorem covers_fresh (h : r.Stamped x) : r.fresh.covers x = true := by
  obtain ⟨e, he, hsource, hversion⟩ := h
  exact covers_iff.2 ⟨e, List.mem_filter.2 ⟨he, by simp [isFresh, hversion]⟩, hsource⟩

theorem stamped_observe (h : r.Stamped z ∨ z = x) : (r.observe s l x).2.Stamped z := by
  unfold observe
  split
  next hc =>
    -- entries of the source are stamped, and the others stay
    obtain ⟨d, hd, hdx⟩ := covers_iff.1 hc
    by_cases hzx : z = x
    · exact ⟨{ d with version := r.version }, List.mem_map.2 ⟨d, hd, by simp [hdx]⟩, hdx.trans hzx.symm, rfl⟩
    · obtain ⟨e, he, hez, hv⟩ := h.resolve_right hzx
      exact ⟨e, List.mem_map.2 ⟨e, he, by simp [hez, hzx]⟩, hez, hv⟩
  next hc =>
    rcases h with ⟨e, he, hez, hv⟩ | rfl
    · exact ⟨e, List.mem_append_left _ he, hez, hv⟩
    · exact ⟨_, List.mem_append_right _ (List.mem_singleton_self _), rfl, rfl⟩

/-- The store after a source was entered: registrations of the listener are added, if any. -/
theorem relists_observe (r : Observations) (l : Listener) (hx : s.Has x) :
    ∃ more, s.Relists (· ++ more) x (r.observe s l x).1 := by
  unfold observe
  split
  · exact ⟨[], .refl, fun z => by simp⟩
  · exact ⟨_, Store.relists_listen l hx⟩

end Observations

namespace Session

/-! ### What is left alone -/

variable {W W' : Source → Prop} {s t u : Session} {b c : BindingId} {x : Binding} {e : Observation}

/-- Between `s` and `t`, the binding is left as it is, and so are its registrations and all values but those of the
sources `W`. -/
structure Leaves (W : Source → Prop) (s t : Session) (c : BindingId) : Prop where
  same : (t.bindings.get? c).map Binding.outline = (s.bindings.get? c).map Binding.outline
  knows {p : ObjectId} : s.store.Knows (.object p) → t.store.Knows (.object p)
  property {p : ObjectId} {n : String} : s.store.Knows (.object p) → ¬W (.property p n) →
    t.store.property p n = s.store.property p n
  kept {x : Binding} {e : Observation} : s.bindings.get? c = some x → e ∈ x.observations.entries → s.store.Holds c e →
    t.store.Holds c e
  cached {x : Binding} {e : Observation} {o : ObserverId} : s.bindings.get? c = some x → e ∈ x.observations.entries →
    s.store.Holds c e → e.source = .observer o → ¬W (.observer o) → Eval.cached t.store o = Eval.cached s.store o

theorem Leaves.refl : Leaves W s s c := ⟨rfl, id, fun _ _ => rfl, fun _ _ => id, fun _ _ _ _ _ => rfl⟩

/-- A binding of which only the outline is known to be the same has the same record. -/
theorem Leaves.get? (h : Leaves W s t c) (hx : s.bindings.get? c = some x) :
    ∃ z, t.bindings.get? c = some z ∧ z.outline = x.outline := by
  have hs := h.same
  rw [hx] at hs
  obtain ⟨z, hz, ho⟩ := Option.map_eq_some_iff.1 hs
  exact ⟨z, hz, ho⟩

theorem Leaves.trans (h : Leaves W s t c) (h' : Leaves W t u c) : Leaves W s u c where
  same := h'.same.trans h.same
  knows hp := h'.knows (h.knows hp)
  property hp hw := (h'.property (h.knows hp) hw).trans (h.property hp hw)
  kept hx he hh := by
    obtain ⟨z, hz, ho⟩ := h.get? hx
    exact h'.kept hz (Binding.observations_of_outline ho ▸ he) (h.kept hx he hh)
  cached hx he hh ho hw := by
    obtain ⟨z, hz, hout⟩ := h.get? hx
    have hc := h'.cached hz (Binding.observations_of_outline hout ▸ he) (h.kept hx he hh) ho hw
    exact hc.trans (h.cached hx he hh ho hw)

theorem Leaves.mono (hW : ∀ z, W z → W' z) (h : Leaves W s t c) : Leaves W' s t c where
  same := h.same
  knows := h.knows
  property hp hw := h.property hp fun hz => hw (hW _ hz)
  kept := h.kept
  cached hx he hh ho hw := h.cached hx he hh ho fun hz => hw (hW _ hz)

/-- A change of observers that the binding does not observe, or of objects that there were not. -/
theorem Leaves.of_sources (hs : (t.bindings.get? c).map Binding.outline = (s.bindings.get? c).map Binding.outline)
    (hp : ∀ p, s.store.Knows (.object p) → t.store.objects.get? p = s.store.objects.get? p)
    (hc : t.store.collections = s.store.collections)
    (ho : ∀ x e o, s.bindings.get? c = some x → e ∈ x.observations.entries → s.store.Holds c e →
      e.source = .observer o → t.store.observers.get? o = s.store.observers.get? o) : Leaves W s t c where
  same := hs
  knows {p} hk := by
    have hk' : (s.store.objects.get? p).isSome := hk
    rwa [← hp p hk] at hk'
  property {p n} hk _ := by simp only [Store.property, Store.object, hp p hk]
  kept {x e} hx he hh := by
    refine hh.congr (fun hl => ?_) fun o hsource hlive => by rwa [Store.isLive_congr (ho x e o hx he hh hsource)]
    cases hsource : e.source with
    | property p n =>
      rw [hsource] at hl
      simpa only [Store.listeners, Store.object, hp p (hh.knows hsource)] using hl
    | observer o =>
      rw [hsource] at hl
      simpa only [Store.listeners, ho x e o hx he hh hsource] using hl
    | collection d =>
      rw [hsource] at hl
      simpa only [Store.listeners, hc] using hl
  cached {x e o} hx he hh hsource _ := by simp only [Eval.cached, ho x e o hx he hh hsource]

theorem Leaves.of_store (hs : (t.bindings.get? c).map Binding.outline = (s.bindings.get? c).map Binding.outline)
    (ho : t.store.objects = s.store.objects) (hv : t.store.observers = s.store.observers)
    (hc : t.store.collections = s.store.collections) : Leaves W s t c :=
  .of_sources hs (fun _ _ => by rw [ho]) hc fun _ _ _ _ _ _ _ => by rw [hv]

/-- Listeners of a source come and go, and the binding is not among them. -/
theorem Leaves.relists {f : List (Nat × Listener) → List (Nat × Listener)} {z : Source} {st : Store}
    (h : Store.Relists f z s.store st)
    (hf : ∀ x e, s.bindings.get? c = some x → e ∈ x.observations.entries → z = e.source →
      (e.token, Listener.binding c) ∈ (s.store.listeners e.source).entries →
      (e.token, Listener.binding c) ∈ f (s.store.listeners e.source).entries) :
    Leaves W s { s with store := st } c where
  same := rfl
  knows := h.knows
  property {p n} _ _ := by simp only [Store.property, Object.get, h.properties]
  kept {x e} hx he hh := h.holds (hf x e hx he) hh
  cached _ _ _ _ _ := h.cached _

/-! ### Releasing -/

/-- None of the registrations to be released is the binding's. -/
def Foreign (s : Session) (c : BindingId) (es : List Observation) : Prop :=
  ∀ x, s.bindings.get? c = some x → ∀ e ∈ x.observations.entries, ∀ d ∈ es, e.source = d.source → e.token ≠ d.token

/-- The binding has all the registrations of its record. -/
def Listed (s : Session) (c : BindingId) : Prop :=
  ∀ x, s.bindings.get? c = some x → ∀ e ∈ x.observations.entries, s.store.Holds c e

/-- What one binding holds is no other's. -/
theorem Listed.foreign (hc : s.Listed c) (hbc : b ≠ c) {es : List Observation}
    (hes : ∀ d ∈ es, s.store.Holds b d) : s.Foreign c es := by
  intro x hx e he d hd hsource htoken
  have hl := (hc x hx e he).listed
  rw [hsource, htoken] at hl
  exact hbc (Listener.binding.inj (Listeners.eq_of_token _ (hes d hd).listed hl))

theorem Leaves.listed (h : Leaves W s t c) (hs : s.Listed c) : t.Listed c := by
  intro z hz e he
  have hsame := h.same
  rw [hz] at hsame
  obtain ⟨x, hx, ho⟩ := Option.map_eq_some_iff.1 hsame.symm
  rw [← Binding.observations_of_outline ho] at he
  exact h.kept hx he (hs x hx e he)

theorem Leaves.close (d : Subscription) : Leaves W s (s.close d) c :=
  .of_store (by rw [close_bindings]) (close_objects ..) (close_observers ..) (by cases d <;> rfl)

/-- An observer is destroyed that the binding does not listen to. -/
theorem Leaves.destroy {o : ObserverId} (h : (s.store.listeners (.observer o)).isEmpty = true) :
    Leaves W s (s.destroy o) c := by
  unfold Session.destroy
  split
  · exact .refl
  next x hx =>
    split
    · exact .refl
    · refine .trans ?_ (.close _)
      refine .of_sources rfl (fun _ _ => rfl) rfl fun z e p _ _ he hsource => ?_
      have hop : o ≠ p := by
        rintro rfl
        have hl := he.listed
        rw [hsource, List.isEmpty_iff.1 h] at hl
        cases hl
      simp [Store.setObserver, Table.get?_insert, hop]

theorem Leaves.unlisten {z : Source} {token : Nat}
    (h : ∀ x, s.bindings.get? c = some x → ∀ e ∈ x.observations.entries, e.source = z → e.token ≠ token) :
    Leaves W s (s.unlisten z token) c := by
  have hunlist : Leaves W s { s with store := s.store.unlisten token z } c :=
    .relists (Store.relists_unlisten ..) fun x e hx he hz hl =>
      List.mem_filter.2 ⟨hl, by simpa using h x hx e he hz.symm⟩
  unfold Session.unlisten
  dsimp only
  split
  · split
    next hempty => exact hunlist.trans (.destroy (by simpa using (Bool.and_eq_true_iff.1 hempty).2))
    · exact hunlist
  · exact hunlist

/-- What a record of a binding has an entry for is held. -/
theorem isHeld_of_observed {o : ObserverId} (hx : s.bindings.get? c = some x) (he : e ∈ x.observations.entries)
    (ho : e.source = .observer o) : s.isHeld o.ref = true := by
  have hobserved : s.isObserved (.observer o) = true := by
    refine List.any_eq_true.2 ⟨x.observations, ?_, List.any_eq_true.2 ⟨e, he, by simpa using ho⟩⟩
    exact List.mem_append_left _ (List.mem_map.2 ⟨x, Table.mem_values_of_get? hx, rfl⟩)
  simp [Session.isHeld, Id.ref, hobserved]

theorem Leaves.letGoObserver (o : ObserverId) : Leaves W s (s.letGoObserver o) c := by
  unfold Session.letGoObserver
  split
  · exact .refl
  next hheld =>
    split
    · exact .refl
    · refine .trans ?_ (.close _)
      refine .of_sources rfl (fun _ _ => rfl) rfl fun z e p hz he _ hsource => ?_
      have hop : o ≠ p := by
        rintro rfl
        exact hheld (isHeld_of_observed hz he hsource)
      simp [Table.get?_erase, hop]

theorem Leaves.release (h : s.Foreign c [e]) : Leaves W s (s.release e) c := by
  have hun : Leaves W s (s.unlisten e.source e.token) c :=
    .unlisten fun x hx d hd hsource => h x hx d hd e (by simp) hsource
  unfold Session.release
  dsimp only
  split
  · exact hun.trans (.letGoObserver _)
  · exact hun

theorem bindings_release (s : Session) (e : Observation) : (s.release e).bindings = s.bindings := by
  have := bindings_releaseAll s [e]
  exact this

theorem Leaves.releaseAll {es : List Observation} (h : s.Foreign c es) : Leaves W s (s.releaseAll es) c := by
  unfold Session.releaseAll
  induction es generalizing s with
  | nil => exact .refl
  | cons e es ih =>
    have hone : Leaves W s (s.release e) c := .release fun x hx d hd e' he' => h x hx d hd e' (by simp_all)
    refine hone.trans (ih fun x hx d hd e' he' => ?_)
    rw [bindings_release] at hx
    exact h x hx d hd e' (List.mem_cons_of_mem _ he')

/-! ### Evaluating and observing -/

theorem Leaves.modifyBinding {f : Binding → Binding} (h : b ≠ c ∨ ∀ x, (f x).outline = x.outline) :
    Leaves W s (s.modifyBinding b f) c := by
  refine .of_store ?_ rfl rfl rfl
  simp only [Session.modifyBinding, Table.get?_modify]
  split
  next hbc =>
    subst hbc
    cases s.bindings.get? b with
    | none => rfl
    | some x => exact congrArg some ((h.resolve_left fun hne => hne rfl) x)
  · rfl

theorem Leaves.evaluateBound (h : s.store.Tidy) (x : Binding) (y : Bound) : Leaves W s (s.evaluateBound x y).1 c := by
  have hspares := (evaluatesTo_evaluateBound h x y).spares
  refine .of_sources ?_ (fun p => hspares.objects) hspares.collections fun z e o _ _ he hsource => ?_
  · unfold Session.evaluateBound Session.evaluate
    split <;> rfl
  · have hhas := he.has
    rw [hsource] at hhas
    exact hspares.observers_of_isLive hhas

/-- What was read is there. -/
def Readable (s : Session) (reads : List Read) : Prop := ∀ r ∈ reads, s.store.Has (sourceOf r)

/-- A binding enters one thing that it read. -/
def observeOne (s : Session) (b : BindingId) (x : Binding) (r : Read) : Session :=
  { s with
    store := (x.observations.observe s.store (.binding b) (sourceOf r)).1
    bindings := s.bindings.insert b
      { x with observations := (x.observations.observe s.store (.binding b) (sourceOf r)).2 } }

theorem observe_cons (hx : s.bindings.get? b = some x) (r : Read) (reads : List Read) :
    s.observe b (r :: reads) = (s.observeOne b x r).observe b reads := by
  simp only [observe, List.foldl_cons, hx, observeOne]

theorem get?_observeOne (s : Session) (b : BindingId) (x : Binding) (r : Read) (c : BindingId) :
    (s.observeOne b x r).bindings.get? c =
      if b = c then some { x with observations := (x.observations.observe s.store (.binding b) (sourceOf r)).2 }
      else s.bindings.get? c :=
  Table.get?_insert ..

theorem Readable.observeOne {r : Read} {reads : List Read} (h : s.Readable (r :: reads)) (b : BindingId) (x : Binding) :
    (s.observeOne b x r).Readable reads := by
  obtain ⟨more, hr⟩ := Observations.relists_observe x.observations (.binding b) (h r (by simp))
  intro d hd
  have hhas := h d (List.mem_cons_of_mem _ hd)
  cases d with
  | property p n => trivial
  | stream i o => exact (hr.live o).trans hhas

theorem Leaves.observe {reads : List Read} (h : s.Readable reads) (hbc : b ≠ c) (hx : s.bindings.get? b = some x) :
    Leaves W s (s.observe b reads) c := by
  induction reads generalizing s x with
  | nil => exact .refl
  | cons r reads ih =>
    obtain ⟨more, hr⟩ := Observations.relists_observe x.observations (.binding b) (h r (by simp))
    rw [observe_cons hx]
    have hstore : Leaves W s { s with store := (x.observations.observe s.store (.binding b) (sourceOf r)).1 } c :=
      .relists hr fun _ _ _ _ _ hl => List.mem_append_left _ hl
    have hbinding : Leaves W { s with store := (x.observations.observe s.store (.binding b) (sourceOf r)).1 }
        (s.observeOne b x r) c := by
      refine .of_store ?_ rfl rfl rfl
      rw [get?_observeOne, if_neg hbc]
    have hget := get?_observeOne s b x r b
    rw [if_pos rfl] at hget
    exact hstore.trans (hbinding.trans (ih (h.observeOne b x) hget))

/-- What a binding is after it has entered what it read. -/
structure Observed (s : Session) (b : BindingId) (x : Binding) (reads : List Read) (t : Session) : Prop where
  resembles : s.store.Resembles t.store
  systems : t.systems = s.systems
  record : ∃ r, t.bindings.get? b = some { x with observations := r } ∧ (∀ d ∈ reads, r.Stamped (sourceOf d)) ∧
    ∀ z, x.observations.Stamped z → r.Stamped z

theorem observed_observe {reads : List Read} (h : s.Readable reads) (hx : s.bindings.get? b = some x) :
    Observed s b x reads (s.observe b reads) := by
  induction reads generalizing s x with
  | nil => exact ⟨.refl, rfl, x.observations, hx, by simp, fun _ => id⟩
  | cons r reads ih =>
    obtain ⟨more, hrel⟩ := Observations.relists_observe x.observations (.binding b) (h r (by simp))
    have hget := get?_observeOne s b x r b
    rw [if_pos rfl] at hget
    obtain ⟨hres, hsys, o, ho, hstamped, hkept⟩ := ih (h.observeOne b x) hget
    rw [observe_cons hx]
    have hone : s.store.Resembles (s.observeOne b x r).store := hrel.toResembles
    refine ⟨hone.trans hres, hsys, o, ho, fun d hd => ?_, fun z hz => ?_⟩
    · rcases List.mem_cons.1 hd with rfl | hd
      · exact hkept _ (Observations.stamped_observe (.inr rfl))
      · exact hstamped d hd
    · exact hkept z (Observations.stamped_observe (.inl hz))

/-! ### Notifying -/

theorem Leaves.notify (z : Source) (new previous : Value) : Leaves W s (s.notify z new previous).session c :=
  .relists (Store.relists_sweep ..) fun x e hx he hz hl =>
    List.mem_filter.2 ⟨hl, by simp [isPresent, Table.contains, hx]⟩

/-- A binding that observes the source is going to be told. -/
theorem awaits_notify {z : Source} (hx : s.bindings.get? c = some x) (he : s.store.Holds c e) (hz : e.source = z)
    (new previous : Value) : ∃ t ∈ (s.notify z new previous).tasks, t.Awaits c := by
  refine ⟨_, List.mem_singleton_self _, ?_⟩
  have hl := he.listed
  rw [hz] at hl
  refine List.mem_map.2 ⟨(e.token, .binding c), ?_, rfl⟩
  rw [(Store.relists_sweep ..).entries, if_pos rfl]
  exact List.mem_filter.2 ⟨hl, by simp [isPresent, Table.contains, hx]⟩

theorem Leaves.put {p : ObjectId} {n : String} {v : Value}
    (h : W (.property p n) ∨ s.store.property p n = v) :
    Leaves W s { s with store := s.store.setObject p ((s.store.object p).put n v) } c where
  same := rfl
  knows hp := Store.knows_setObject _ _ _ hp
  property {q m} _ hw := by
    simp only [Store.property, Store.object_setObject]
    split
    next hpq =>
      subst hpq
      rw [Object.get_put]
      split
      next hnm =>
        subst hnm
        exact (h.resolve_left hw).symm
      · rfl
    · rfl
  kept _ _ hh := by
    refine hh.congr (fun hl => ?_) fun _ _ => id
    have hlisteners : ∀ z, (s.store.setObject p ((s.store.object p).put n v)).listeners z = s.store.listeners z := by
      intro z
      cases z with
      | property q m =>
        simp only [Store.listeners, Store.object_setObject]
        split
        next hpq => rw [← hpq, Object.put]
        · rfl
      | observer | collection => rfl
    rwa [hlisteners]
  cached _ _ _ _ _ := rfl

theorem Leaves.write {p : ObjectId} {n : String} {v : Value} (h : W (.property p n) ∨ s.store.property p n = v) :
    Leaves W s (s.write p n v).session c := by
  have hput : Leaves W s { s with store := s.store.setObject p ((s.store.object p).put n v) } c := .put h
  unfold Session.write
  dsimp only
  split
  · exact hput.trans (.notify ..)
  · exact hput

theorem awaits_write {p : ObjectId} {n : String} {v : Value} (h : (s.store.object p).changes n v = true)
    (hx : s.bindings.get? c = some x) (hmem : e ∈ x.observations.entries) (he : s.store.Holds c e)
    (hz : e.source = .property p n) : ∃ t ∈ (s.write p n v).tasks, t.Awaits c := by
  have hput : Leaves (fun z => z = .property p n) s
      { s with store := s.store.setObject p ((s.store.object p).put n v) } c := .put (.inl rfl)
  unfold Session.write
  dsimp only
  rw [if_pos h]
  exact awaits_notify (s := { s with store := s.store.setObject p ((s.store.object p).put n v) }) hx
    (hput.kept hx hmem he) hz ..

theorem Leaves.told {o : ObserverId} {z : Observer} (hz : s.store.observers.get? o = some z) (d : StreamEvent)
    (hW : W (.observer o)) : Leaves W s { s with store := s.store.setObserver o (z.receive d).1 } c where
  same := rfl
  knows := id
  property _ _ := rfl
  kept {x e} _ _ hh := by
    refine hh.congr (fun hl => ?_) fun p _ hlive => ?_
    · cases hsource : e.source with
      | observer p =>
        rw [hsource] at hl
        by_cases hop : o = p
        · subst hop
          simp only [Store.listeners, hz] at hl
          simpa [Store.listeners, Store.setObserver, Table.get?_insert, Observer.receive_listeners] using hl
        · simpa [Store.listeners, Store.setObserver, Table.get?_insert, hop] using hl
      | property | collection =>
        rw [hsource] at hl
        exact hl
    · by_cases hop : o = p
      · subst hop
        simp only [Store.isLive, hz] at hlive
        simpa [Store.isLive, Store.setObserver, Table.get?_insert, Observer.isDestroyed_receive] using hlive
      · simpa [Store.isLive, Store.setObserver, Table.get?_insert, hop] using hlive
  cached {x e p} _ _ _ _ hw := by
    have hop : o ≠ p := by
      rintro rfl
      exact hw hW
    simp [Eval.cached, Store.setObserver, Table.get?_insert, hop]

/-! ### Letting go -/

/-- A binding is left alone or let go. -/
def Spared (W : Source → Prop) (s t : Session) (c : BindingId) : Prop := Leaves W s t c ∨ t.bindings.get? c = none

theorem Spared.of_leaves (h : Leaves W s t c) (h' : Spared W t u c) : Spared W s u c := h'.imp_left h.trans

theorem spared_letGo (hl : ∀ b, s.Listed b) {r : Ref} (hr : r.thing ≠ .record) (c : BindingId) :
    Spared W s (s.letGo r) c := by
  unfold Session.letGo
  split
  · exact .inl .refl
  · split
    · exact .inl (.letGoObserver _)
    · exact .inl (.of_store rfl rfl rfl rfl)
    · split
      · exact .inl .refl
      next x hx =>
        by_cases hc : ⟨r.number⟩ = c
        · refine .inr ?_
          rw [bindings_releaseAll, Table.get?_erase, if_pos hc]
        · have herase : Leaves W s { s with bindings := s.bindings.erase ⟨r.number⟩ } c := by
            refine .of_store ?_ rfl rfl rfl
            rw [Table.get?_erase, if_neg hc]
          refine .inl (herase.trans (.releaseAll fun z hz => ?_))
          rw [Table.get?_erase, if_neg hc] at hz
          exact (hl c).foreign hc (hl _ x hx) z hz
    next hthing => exact absurd hthing hr
    · split
      · exact .inl .refl
      · refine .inl (.trans ?_ (.close _))
        exact .of_store rfl rfl rfl rfl
    all_goals exact .inl .refl

/-! ### Making things -/

theorem Leaves.making {g g' : Ghost} (hm : Moves Making (g, s) (g', t)) (h : Sound g.hand s) : Leaves W s t c := by
  suffices hgen : ∀ a b : Ghost × Session, Moves Making a b → Sound a.1.hand a.2 → Leaves W a.2 b.2 c from
    hgen _ _ hm h
  intro a b hm h
  induction hm with
  | refl => exact .refl
  | tail hm hlast ih =>
    obtain ⟨e, rfl, hlast⟩ := hlast
    have hsound := h.moves hm
    cases hlast with
    | @newObject g s ps =>
      refine ih.trans (.of_sources rfl (fun p hp => ?_) rfl fun _ _ _ _ _ _ _ => rfl)
      simp only [Store.newObject, Table.get?_insert]
      split
      next he =>
        subst he
        exact absurd (hsound.old hp) (Nat.lt_irrefl _)
      · rfl

end Session

end DataBinding
