import DataBinding.Proofs.OneObserver
import DataBinding.Proofs.Registrations

/-!
# Binding and refreshing

What becomes of bindings when one of them is bound, unbound or evaluated again. The others are left alone but for the
target that is written. The one that is evaluated observes all that the evaluation has read, and what it has written is
current: evaluating it again gives the same (`Current`), until something that was read changes.
-/

namespace DataBinding

namespace Binding

variable {x z : Binding}

/-- The property that a binding writes. -/
def slot (x : Binding) : Source := .property x.target x.property

/-- What a binding is to do, whatever has become of it. -/
def request (x : Binding) : Binding :=
  { x with state := none, observations := {}, value := .undefined, lastError := none }

theorem request_of_outline (h : z.outline = x.outline) : z.request = x.request :=
  show z.outline.request = x.outline.request from congrArg request h

theorem system_of_request (h : z.request = x.request) : z.system = x.system :=
  show z.request.system = x.request.system from congrArg Binding.system h

theorem expression_of_request (h : z.request = x.request) : z.expression = x.expression :=
  show z.request.expression = x.request.expression from congrArg Binding.expression h

theorem IsTracked.of_request (hx : x.IsTracked) (h : z.request = x.request) : z.IsTracked := by
  have hflags : z.request.flags = x.request.flags := congrArg Binding.flags h
  have hflags : z.flags = x.flags := hflags
  exact ⟨expression_of_request h ▸ hx.plain, hflags ▸ hx.every⟩

theorem slot_of_request (h : z.request = x.request) : z.slot = x.slot :=
  show z.request.slot = x.request.slot from congrArg slot h

end Binding

/-- A record has one entry for each source. -/
theorem Observations.eq_of_source (r : Observations) {d e : Observation} (hd : d ∈ r.entries) (he : e ∈ r.entries)
    (h : d.source = e.source) : d = e := by
  have hne : r.entries.Pairwise fun a b => a.source = b.source → a = b := r.distinct.imp fun hne he => absurd he hne
  have hne' : r.entries.Pairwise fun a b => b.source = a.source → b = a :=
    r.distinct.imp fun hne he => absurd he.symm hne
  exact hne.forall_of_forall_of_flip (fun _ _ _ => rfl) hne' hd he h

namespace Session

open Store (Resembles)

variable {W : Source → Prop} {g : Ghost} {s t u : Session} {b c : BindingId} {x z : Binding} {y : Bound}

/-! ### What releasing does not touch -/

/-- No property of any object is another one, and only bindings, listeners and observers may differ. -/
structure Steady (s t : Session) : Prop where
  systems : t.systems = s.systems
  records : t.records = s.records
  handlers : t.handlers = s.handlers
  names : t.names = s.names
  tokens : t.tokens = s.tokens
  pending : t.pending = s.pending
  fresh : t.store.fresh = s.store.fresh
  knows {p : ObjectId} : s.store.Knows (.object p) → t.store.Knows (.object p)
  properties (p : ObjectId) : (t.store.object p).properties = (s.store.object p).properties

theorem Steady.refl : Steady s s := ⟨rfl, rfl, rfl, rfl, rfl, rfl, rfl, id, fun _ => rfl⟩

theorem Steady.trans (h : Steady s t) (h' : Steady t u) : Steady s u where
  systems := h'.systems.trans h.systems
  records := h'.records.trans h.records
  handlers := h'.handlers.trans h.handlers
  names := h'.names.trans h.names
  tokens := h'.tokens.trans h.tokens
  pending := h'.pending.trans h.pending
  fresh := h'.fresh.trans h.fresh
  knows hp := h'.knows (h.knows hp)
  properties p := (h'.properties p).trans (h.properties p)

theorem steady_observers (s : Session) (os : Table ObserverId Observer) :
    Steady s { s with store := { s.store with observers := os } } :=
  ⟨rfl, rfl, rfl, rfl, rfl, rfl, rfl, id, fun _ => rfl⟩

theorem steady_close (s : Session) (d : Subscription) : Steady s (s.close d) where
  systems := close_systems ..
  records := close_records ..
  handlers := close_handlers ..
  names := close_names ..
  tokens := by cases d <;> rfl
  pending := close_pending ..
  fresh := close_fresh ..
  knows hp := by
    simp only [Store.Knows, close_objects]
    exact hp
  properties p := by rw [object_close]

theorem steady_modifyBinding (s : Session) (b : BindingId) (f : Binding → Binding) : Steady s (s.modifyBinding b f) :=
  ⟨rfl, rfl, rfl, rfl, rfl, rfl, rfl, id, fun _ => rfl⟩

theorem steady_destroy (s : Session) (o : ObserverId) : Steady s (s.destroy o) := by
  unfold destroy
  split
  · exact .refl
  · split
    · exact .refl
    · exact (steady_observers s _).trans (steady_close ..)

theorem steady_letGoObserver (s : Session) (o : ObserverId) : Steady s (s.letGoObserver o) := by
  unfold letGoObserver
  split
  · exact .refl
  · split
    · exact .refl
    · exact (steady_observers s _).trans (steady_close ..)

theorem fresh_unlisten (s : Store) (n : Nat) (z : Source) : (s.unlisten n z).fresh = s.fresh := by
  cases z <;> rfl

theorem steady_unlisten (s : Session) (z : Source) (token : Nat) : Steady s (s.unlisten z token) := by
  have hunlist : Steady s { s with store := s.store.unlisten token z } :=
    ⟨rfl, rfl, rfl, rfl, rfl, rfl, fresh_unlisten .., (Store.relists_unlisten s.store token z).knows,
      (Store.relists_unlisten s.store token z).properties⟩
  unfold unlisten
  dsimp only
  split
  · split
    · exact hunlist.trans (steady_destroy ..)
    · exact hunlist
  · exact hunlist

theorem steady_release (s : Session) (e : Observation) : Steady s (s.release e) := by
  have hun := steady_unlisten s e.source e.token
  unfold release
  dsimp only
  split
  · exact hun.trans (steady_letGoObserver ..)
  · exact hun

theorem steady_releaseAll (s : Session) (es : List Observation) : Steady s (s.releaseAll es) := by
  unfold releaseAll
  induction es generalizing s with
  | nil => exact .refl
  | cons e es ih => exact (steady_release s e).trans (ih _)

theorem steady_clearStale (s : Session) (b : BindingId) : Steady s (s.clearStale b) := by
  unfold clearStale
  split
  · exact .refl
  · exact (steady_modifyBinding ..).trans (steady_releaseAll ..)

theorem steady_clearObservations (s : Session) (b : BindingId) : Steady s (s.clearObservations b) := by
  unfold clearObservations
  split
  · exact .refl
  · exact (steady_modifyBinding ..).trans (steady_releaseAll ..)

theorem steady_unbind (s : Session) (b : BindingId) : Steady s (s.unbind b) := by
  unfold unbind
  split
  · exact .refl
  · split
    · exact (steady_modifyBinding ..).trans (steady_clearObservations ..)
    · exact .refl

/-- Names belong where they did. -/
theorem Steady.located (h : Steady s t) (y : Bound) (n : String) (k : UInt32) (f : Bool) :
    y.located t.store n k f = y.located s.store n k f := by
  have hp : t.store.hasProperty = s.store.hasProperty := by
    funext p m
    simp only [Store.hasProperty, Object.has, h.properties]
  simp only [Bound.located, Eval.located, hp]

@[simp] theorem systems_notify (s : Session) (z : Source) (new previous : Value) :
    (s.notify z new previous).session.systems = s.systems := rfl

@[simp] theorem systems_write (s : Session) (p : ObjectId) (n : String) (v : Value) :
    (s.write p n v).session.systems = s.systems := by
  unfold write
  dsimp only
  split <;> rfl

@[simp] theorem bindings_write (s : Session) (p : ObjectId) (n : String) (v : Value) :
    (s.write p n v).session.bindings = s.bindings := by
  unfold write
  dsimp only
  split <;> rfl

/-- A property that was written has the value. -/
theorem property_write (s : Session) (p : ObjectId) (n : String) (v : Value) :
    (s.write p n v).session.store.property p n = v := by
  have hput : (s.store.setObject p ((s.store.object p).put n v)).property p n = v := by
    rw [Store.property, Store.object_setObject, if_pos rfl, Object.get_put, if_pos rfl]
  unfold write
  dsimp only
  split
  · refine Eq.trans ?_ hput
    simp only [notify, Store.property, Object.get, (Store.relists_sweep ..).properties]
  · exact hput

/-! ### Other bindings -/

theorem get?_modifyBinding (s : Session) (b : BindingId) (f : Binding → Binding) (c : BindingId) :
    (s.modifyBinding b f).bindings.get? c = if b = c then (s.bindings.get? b).map f else s.bindings.get? c :=
  Table.get?_modify ..

/-- A binding that changes leaves all that it holds as it is. -/
theorem Listed.holds (h : s.Listed b) (hx : s.bindings.get? b = some x) {es : List Observation}
    (hes : ∀ e ∈ es, e ∈ x.observations.entries) (f : Binding → Binding) :
    ∀ e ∈ es, (s.modifyBinding b f).store.Holds b e :=
  fun e he => h x hx e (hes e he)

/-- A binding releases some of what it holds, which no other binding does. -/
theorem Leaves.giveUp (hb : s.Listed b) (hc : s.Listed c) (hbc : b ≠ c) (hx : s.bindings.get? b = some x)
    {es : List Observation} (hes : ∀ e ∈ es, e ∈ x.observations.entries) (f : Binding → Binding) :
    Leaves W s ((s.modifyBinding b f).releaseAll es) c := by
  have hmodify : Leaves W s (s.modifyBinding b f) c := .modifyBinding (.inl hbc)
  exact hmodify.trans (.releaseAll ((hmodify.listed hc).foreign hbc (hb.holds hx hes f)))

theorem Leaves.clearStale (hb : s.Listed b) (hc : s.Listed c) (hbc : b ≠ c) : Leaves W s (s.clearStale b) c := by
  unfold Session.clearStale
  split
  · exact .refl
  next x hx => exact .giveUp hb hc hbc hx (fun e he => (List.mem_filter.1 he).1) _

theorem Leaves.clearObservations (hb : s.Listed b) (hc : s.Listed c) (hbc : b ≠ c) :
    Leaves W s (s.clearObservations b) c := by
  unfold Session.clearObservations
  split
  · exact .refl
  next x hx => exact .giveUp hb hc hbc hx (fun _ => id) _

theorem listed_modifyBinding (h : s.Listed b) {f : Binding → Binding}
    (hf : ∀ x, ∀ e ∈ (f x).observations.entries, ∃ d ∈ x.observations.entries, d.source = e.source ∧ d.token = e.token) :
    (s.modifyBinding b f).Listed b := by
  intro z hz e he
  rw [get?_modifyBinding, if_pos rfl] at hz
  obtain ⟨x, hx, rfl⟩ := Option.map_eq_some_iff.1 hz
  obtain ⟨d, hd, hsource, htoken⟩ := hf x e he
  have hd := h x hx d hd
  exact ⟨by rw [← hsource, ← htoken]; exact hd.listed, hsource ▸ hd.has⟩

theorem Leaves.unbind (hb : s.Listed b) (hc : s.Listed c) (hbc : b ≠ c) : Leaves W s (s.unbind b) c := by
  unfold Session.unbind
  split
  · exact .refl
  · split
    · have hstate : Leaves W s (s.modifyBinding b fun x => { x with state := none }) c := .modifyBinding (.inl hbc)
      have hb' : (s.modifyBinding b fun x => { x with state := none }).Listed b :=
        listed_modifyBinding hb fun x e he => ⟨e, he, rfl, rfl⟩
      exact hstate.trans (.clearObservations hb' (hstate.listed hc) hbc)
    · exact .refl

/-! ### The binding itself -/

/-- The stale entries of a record are not the fresh ones. -/
theorem Leaves.clearStale_self (hx : s.bindings.get? b = some x) :
    Leaves W (s.modifyBinding b fun x => { x with observations := x.observations.fresh }) (s.clearStale b) b := by
  unfold Session.clearStale
  simp only [hx]
  refine .releaseAll fun z hz e he d hd hsource => ?_
  rw [get?_modifyBinding, if_pos rfl, hx] at hz
  obtain rfl := Option.some.inj hz
  obtain ⟨he, hfresh⟩ := List.mem_filter.1 he
  obtain ⟨hd, hstale⟩ := List.mem_filter.1 hd
  obtain rfl := x.observations.eq_of_source he hd hsource
  simp [hfresh] at hstale

theorem get?_clearStale (hx : s.bindings.get? b = some x) :
    (s.clearStale b).bindings.get? b = some { x with observations := x.observations.fresh } := by
  simp only [clearStale, hx, bindings_releaseAll, get?_modifyBinding, if_true, Option.map_some]

/-- A binding that has given up all its entries holds nothing. -/
theorem get?_clearObservations (hx : s.bindings.get? b = some x) :
    (s.clearObservations b).bindings.get? b = some { x with observations := x.observations.cleared } := by
  simp only [clearObservations, hx, bindings_releaseAll, get?_modifyBinding, if_true, Option.map_some]

/-- A binding is unbound, and bound to the scopes in which it is evaluated next. -/
def boundTo (s : Session) (b : BindingId) (y : Bound) : Session :=
  (s.unbind b).modifyBinding b fun x => { x with state := some y }

theorem bind_of_ok (hnew : (x.state.any fun z => z.scope.id = y.scope.id) = false) {v : Value}
    (h : (s.boundTo b y).readAgain b x y = (t, .ok v)) : s.bind b x y = ((t.clearStale b).writeTarget b x v, .ok ()) := by
  unfold boundTo at h
  simp only [bind, hnew, h, Bool.false_eq_true, if_false]

theorem bind_of_error (hnew : (x.state.any fun z => z.scope.id = y.scope.id) = false) {e : ExpressionError}
    (h : (s.boundTo b y).readAgain b x y = (t, .error e)) : s.bind b x y =
      ({ session := (t.modifyBinding b fun x => { x with state := none }).clearObservations b }, .error (.expression e)) := by
  unfold boundTo at h
  simp only [bind, hnew, h, Bool.false_eq_true, if_false]

theorem bind_of_bound (h : (x.state.any fun z => z.scope.id = y.scope.id) = true) :
    s.bind b x y = ({ session := s }, .ok ()) := by
  simp only [bind, h, if_true]

/-! ### What was read -/

theorem evaluateBound_congr (h : z.request = x.request) (s : Session) (y : Bound) :
    s.evaluateBound z y = s.evaluateBound x y := by
  have hsame : z.request.system = x.request.system ∧ z.request.flags = x.request.flags ∧
      z.request.expression = x.request.expression := by simp only [h, and_self]
  obtain ⟨hs, hf, he⟩ : z.system = x.system ∧ z.flags = x.flags ∧ z.expression = x.expression := hsame
  simp only [evaluateBound, hs, hf, he]

/-- The identities of all observers were taken before. -/
def Dated (s : Session) : Prop := ∀ ⦃o : ObserverId⦄, (s.store.observers.get? o).isSome → o.number < s.store.fresh

theorem Sound.tidy {H : Shared → Prop} (h : Sound H s) (hd : Dated s) : s.store.Tidy := ⟨h.old, fun ho => hd ho⟩

/-- An observer that there is becomes another one, or goes. -/
theorem Dated.frame (h : Dated s) (hf : s.store.fresh ≤ t.store.fresh)
    (ho : ∀ o, (t.store.observers.get? o).isSome → (s.store.observers.get? o).isSome) : Dated t :=
  fun o hsome => Nat.lt_of_lt_of_le (h (ho o hsome)) hf

theorem isSome_setObserver {o : ObserverId} {d : Observer} (hd : s.store.observers.get? o = some d) (d' : Observer)
    (p : ObserverId) (hp : ((s.store.setObserver o d').observers.get? p).isSome) : (s.store.observers.get? p).isSome := by
  simp only [Store.setObserver, Table.get?_insert] at hp
  split at hp
  next hop =>
    subst hop
    rw [hd]
    rfl
  · exact hp

theorem Dated.move {e : Effect} {a b : Ghost × Session} (hm : Move e a b) (h : Dated a.2) : Dated b.2 := by
  have hf := hm.fresh_le
  cases hm with
  | @opening g s y i =>
    intro o ho
    have hfresh := Store.fresh_openObserver s.store i
    change o.number < (s.store.openObserver i).1.fresh
    rw [Store.observers_openObserver] at ho
    split at ho
    next he => rw [hfresh, ← he]; exact Nat.lt_succ_self _
    · rw [hfresh]
      exact Nat.lt_succ_of_lt (h ho)
  | @destroying g s o d ho hd =>
    refine h.frame hf fun p hp => ?_
    rw [close_observers] at hp
    exact isSome_setObserver ho _ p hp
  | @erasing g s o d ho =>
    refine h.frame hf fun p hp => ?_
    rw [close_observers, Table.get?_erase] at hp
    split at hp
    · cases hp
    · exact hp
  | listening ho | hearing ho => exact h.frame hf fun p hp => isSome_setObserver ho _ p hp
  | receiving ho => exact h.frame hf fun p hp => isSome_setObserver ho _ p hp
  | releasing =>
    refine h.frame hf fun p hp => ?_
    rwa [close_observers] at hp
  | subscribing =>
    refine h.frame hf fun p hp => ?_
    rwa [Store.subscribe_eq] at hp
  | _ => exact h.frame hf fun p hp => hp

theorem Dated.moves {E : Effect → Prop} {a b : Ghost × Session} (hm : Moves E a b) (h : Dated a.2) : Dated b.2 := by
  induction hm with
  | refl => exact h
  | tail _ hlast ih =>
    obtain ⟨e, -, hlast⟩ := hlast
    exact ih.move hlast

theorem dated_initial : Dated initial := Dated.moves moves_initial fun _ ho => by cases ho

theorem dated_play (as : List Act) : Dated (initial.play as) := by
  induction as using List.reverseRecOn with
  | nil => exact dated_initial
  | append_singleton as a ih =>
    obtain ⟨g, hm⟩ := moves_act (sound_initial.play as) (fun _ _ _ => False) a
    rw [play_append]
    exact Dated.moves hm ih

/-- Systems stay. -/
theorem Moves.isSome_system {E : Effect → Prop} {a b : Ghost × Session} (hm : Moves E a b) {i : SystemId}
    (h : (a.2.systems.get? i).isSome) : (b.2.systems.get? i).isSome := by
  induction hm with
  | refl => exact h
  | tail _ hlast ih =>
    obtain ⟨e, -, hlast⟩ := hlast
    cases hlast with
    | systems _ hs => exact hs i ih
    | opening _ _ _ hs =>
      have hsame := hs i
      exact hsame.trans ih
    | destroying | erasing | releasing =>
      rw [close_systems]
      exact ih
    | _ => exact ih

/-- What an evaluation has read is there, and the registry has the observers that were read through. -/
structure HasRead (i : SystemId) (reads : List Read) (t : Session) : Prop where
  knows {p : ObjectId} {n : String} : .property p n ∈ reads → t.store.Knows (.object p)
  entry {j : StreamId} {o : ObserverId} : .stream j o ∈ reads → t.systems.entryIn i j = some o
  live {j : StreamId} {o : ObserverId} : .stream j o ∈ reads → t.store.isLive o = true

theorem HasRead.readable {i : SystemId} {reads : List Read} (h : HasRead i reads t) : t.Readable reads := by
  intro r hr
  cases r with
  | property p n => trivial
  | stream j o => exact h.live hr

theorem hasRead_evaluateBound (h : Sound (· ∈ s.held) s) (hz : s.bindings.get? b = some z) (hy : z.state = some y)
    (x : Binding) :
    HasRead x.system (s.evaluateBound x y).2.1 (s.evaluateBound x y).1 ∧
      ∀ i, (s.systems.get? i).isSome → ((s.evaluateBound x y).1.systems.get? i).isSome := by
  obtain ⟨hscope, hhost⟩ := (within_binding.1 (h.outside.bindings hz)).2.2.2 y hy
  obtain ⟨g, hm, hreads, hentries, -⟩ := Moves.evaluate (g := s.bare) h (fun _ => isAlive_iff.2) hscope hhost x.system
    x.flags .everything x.expression
  have hs : Sound g.hand (s.evaluateBound x y).1 := h.moves hm
  refine ⟨⟨fun {p n} hr => ?_, fun hr => (hentries _ _ hr).1, fun hr => (hentries _ _ hr).2⟩, fun i hi => ?_⟩
  · exact hs.known (hreads _ hr (.object p) (by simp [sourceOf, sharedInSource]))
  · exact Moves.isSome_system hm hi

/-! ### A new round -/

theorem get?_nextRound (hz : s.bindings.get? b = some z) :
    (s.nextRound b).bindings.get? b = some { z with observations := z.observations.nextRound } := by
  rw [nextRound, get?_modifyBinding, if_pos rfl, hz, Option.map_some]

/-- An evaluation leaves the round of a binding to the binding. -/
theorem get?_evaluateBound (hz : s.bindings.get? b = some z) (x : Binding) (y : Bound) :
    ((s.nextRound b).evaluateBound x y).1.bindings.get? b =
      some { z with observations := z.observations.nextRound } := by
  rw [Session.evaluateBound, bindings_evaluate, get?_nextRound hz]

theorem Sound.nextRound (h : Sound (· ∈ s.held) s) (b : BindingId) :
    Sound (· ∈ (s.nextRound b).held) (s.nextRound b) := by
  have hm : Moves Silent (s.bare, s) (s.bare, s.nextRound b) :=
    .modifyBinding fun z hz => within_withObservations (h.outside.bindings hz) fun e he => he
  have hs : Sound s.bare.hand (s.nextRound b) := h.moves hm
  exact hs.narrow

theorem Sound.tidy_nextRound (h : Sound (· ∈ s.held) s) (hd : Dated s) (b : BindingId) : (s.nextRound b).store.Tidy :=
  (h.nextRound b).tidy hd

theorem Sound.hasRead_nextRound (h : Sound (· ∈ s.held) s) (hz : s.bindings.get? b = some z) (hy : z.state = some y)
    (x : Binding) :
    HasRead x.system ((s.nextRound b).evaluateBound x y).2.1 ((s.nextRound b).evaluateBound x y).1 :=
  (hasRead_evaluateBound (h.nextRound b) (get?_nextRound hz) hy x).1

end Session

end DataBinding
