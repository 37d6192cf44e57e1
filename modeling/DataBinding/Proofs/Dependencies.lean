import DataBinding.Proofs.RebaseMeaning

/-!
# What an evaluation depends on

Whatever an evaluation looks at, it reports. Two evaluations of one expression are followed side by side, each from a
state of its own: the states have the same objects with the same keys, and the properties and the latest values of
streams that the first evaluation reads are the same in both. Then the second gives the same result and reads the same,
in the same order (`evaluate_of_agreesOn`). What the first one does not report may differ as it likes, and so may the
registries: a stream that is read through an observer that was there already may be read through a new one in the other
run.

The two runs agree only on what the first one reads until its end, which is known only at its end. So a computation is
said to follow another if it gives the same provided that the states agree on all that will have been read (`Follows`);
since what was read goes on to be there, the parts of a computation can be taken one after another.
-/

namespace DataBinding

open Eval (cached located reported)

/-- What was read, through whatever observer. -/
def Read.subject : Read → (ObjectId × String) ⊕ StreamId
  | property o n => .inl (o, n)
  | stream i _ => .inr i

namespace EvalState

/-- The identities of all that there is were taken before. -/
structure Orderly (t : EvalState) : Prop where
  known : Registry.Known t.store t.registry
  objects {p : ObjectId} : p ∈ t.store.objects.keys → p.number < t.store.fresh

/-- The value that reading through the stream would give. -/
def latest (t : EvalState) (alive : StreamId → Bool) (i : StreamId) : Value := t.registry.latest alive t.store i

/-- Nothing that was read or made is forgotten. -/
structure Extends (t u : EvalState) : Prop where
  orderly : u.Orderly
  reads : t.reads <+: u.reads
  objects : t.store.objects.keys <+: u.store.objects.keys

/-- As far as both have made objects, these have the same identities. -/
def MakesSame (t t' : EvalState) : Prop :=
  t.store.objects.keys <+: t'.store.objects.keys ∨ t'.store.objects.keys <+: t.store.objects.keys

variable {t t' u u' : EvalState}

theorem Orderly.extends (h : t.Orderly) : t.Extends t := ⟨h, List.prefix_rfl, List.prefix_rfl⟩

theorem Extends.trans {v : EvalState} (h : t.Extends u) (h' : u.Extends v) : t.Extends v :=
  ⟨h'.orderly, h.reads.trans h'.reads, h.objects.trans h'.objects⟩

theorem MakesSame.of_extends (hu : t.Extends u) (hu' : t'.Extends u') (h : MakesSame u u') : MakesSame t t' := by
  rcases h with h | h
  · exact List.prefix_or_prefix_of_prefix (hu.objects.trans h) hu'.objects
  · exact List.prefix_or_prefix_of_prefix hu.objects (hu'.objects.trans h)

/-- The new object comes after all others. -/
theorem Orderly.keys_newObject (h : t.Orderly) (ps : Table String Value) :
    (t.store.newObject ps).1.objects.keys = t.store.objects.keys ++ [⟨t.store.fresh⟩] := by
  have hlt : ∀ p ∈ t.store.objects.keys, compare p (⟨t.store.fresh⟩ : ObjectId) = .lt :=
    fun p hp => Nat.compare_eq_lt.2 (h.objects hp)
  exact Table.keys_insert_of_lt _ hlt

theorem Orderly.newObject (h : t.Orderly) (ps : Table String Value) :
    ({ t with store := (t.store.newObject ps).1 } : EvalState).Orderly := by
  have hf : (t.store.newObject ps).1.fresh = t.store.fresh + 1 := rfl
  refine ⟨⟨fun ho => Nat.lt_succ_of_lt (h.known.observers ho), fun ho => Nat.lt_succ_of_lt (h.known.entries ho)⟩, ?_⟩
  intro p hp
  rw [h.keys_newObject] at hp
  rcases List.mem_append.1 hp with hp | hp
  · have := h.objects hp
    simp only [hf]
    omega
  · obtain rfl := List.mem_singleton.1 hp
    simp [hf]

/-- What the state is after the observer of a stream was asked for and read. -/
def readingStream (alive : StreamId → Bool) (t : EvalState) (i : StreamId) : EvalState :=
  { store := (t.registry.observerFor alive t.store i).1
    registry := (t.registry.observerFor alive t.store i).2.1
    reads := t.reads ++ [.stream i (t.registry.observerFor alive t.store i).2.2] }

theorem Orderly.readingStream (h : t.Orderly) (alive : StreamId → Bool) (i : StreamId) :
    t.Extends (t.readingStream alive i) := by
  have hobjects := Registry.objects_observerFor alive t.store t.registry i
  have hfresh := Registry.fresh_observerFor alive t.store t.registry i
  refine ⟨⟨h.known.observerFor alive i, fun {p} hp => ?_⟩, List.prefix_append .., ?_⟩
  · simp only [EvalState.readingStream, hobjects] at hp
    exact Nat.lt_of_lt_of_le (h.objects hp) hfresh
  · simp only [EvalState.readingStream, hobjects]
    exact List.prefix_rfl

end EvalState

namespace Eval

open EvalState (Extends MakesSame readingStream)

section

variable (ctx ctx' : EvalContext) (a a' : EvalState)

/-- The states `a` and `a'` agree on what was read. A stream that is read is held by what it was found in, and so
alive. -/
structure AgreesOn (reads : List Read) : Prop where
  property {p : ObjectId} {n : String} : .property p n ∈ reads → a'.store.property p n = a.store.property p n
  stream {i : StreamId} {o : ObserverId} : .stream i o ∈ reads →
    ctx.alive i = true ∧ ctx'.alive i = true ∧ a'.latest ctx'.alive i = a.latest ctx.alive i

/-- Two evaluations, begun in `a` and `a'`, have come equally far: they have read and made the same. Where they began
with the same value they have the same value. -/
structure Abreast (t t' : EvalState) : Prop where
  first : t.Orderly
  second : t'.Orderly
  reads : t'.reads.map Read.subject = t.reads.map Read.subject
  objects : t'.store.objects.keys = t.store.objects.keys
  has : t'.store.hasProperty = t.store.hasProperty
  property {p : ObjectId} {n : String} : a'.store.property p n = a.store.property p n →
    t'.store.property p n = t.store.property p n
  latest {i : StreamId} : ctx.alive i = true → ctx'.alive i = true → a'.latest ctx'.alive i = a.latest ctx.alive i →
    t'.latest ctx'.alive i = t.latest ctx.alive i

end

/-- The computation forgets nothing, and of its result `Q` holds. -/
def Keeping {α : Type} (Q : α → Prop) (m : Eval α) : Prop :=
  ∀ t : EvalState, t.Orderly → t.Extends (m.run t).2 ∧ ∀ x, (m.run t).1 = .ok x → Q x

/-- Begun equally far, `m'` gives what `m` gives and ends equally far, if the states agree on what `m` will have
read. -/
def Follows (ctx ctx' : EvalContext) (a a' : EvalState) {α : Type} (Q : α → Prop) (m m' : Eval α) : Prop :=
  Keeping Q m ∧ Keeping Q m' ∧ ∀ t t', Abreast ctx ctx' a a' t t' → AgreesOn ctx ctx' a a' (m.run t).2.reads →
    MakesSame (m.run t).2 (m'.run t').2 →
      (m'.run t').1 = (m.run t).1 ∧ Abreast ctx ctx' a a' (m.run t).2 (m'.run t').2

variable {ctx ctx' : EvalContext} {a a' : EvalState} {α β : Type}

theorem AgreesOn.mono {rs rs' : List Read} (h : AgreesOn ctx ctx' a a' rs') (hrs : rs <+: rs') :
    AgreesOn ctx ctx' a a' rs :=
  ⟨fun hp => h.property (hrs.subset hp), fun hi => h.stream (hrs.subset hi)⟩

/-! ### Computations one after another -/

theorem Keeping.bind {Q : α → Prop} {Q' : β → Prop} {m : Eval α} {f : α → Eval β} (hm : Keeping Q m)
    (hf : ∀ x, Q x → Keeping Q' (f x)) : Keeping Q' (m >>= f) := by
  intro t ht
  obtain ⟨htu, hx⟩ := hm t ht
  rw [run_bind]
  cases hrun : m.run t with
  | mk r u =>
    rw [hrun] at htu hx
    cases r with
    | error e => exact ⟨htu, fun _ h => by cases h⟩
    | ok x =>
      obtain ⟨huv, hy⟩ := hf x (hx x rfl) u htu.orderly
      exact ⟨htu.trans huv, hy⟩

/-- Where a computation begins that goes on with `f`, it goes on to keep what `m` left. -/
theorem Keeping.extends_bind {Q : α → Prop} {Q' : β → Prop} {m : Eval α} {f : α → Eval β} (hm : Keeping Q m)
    (hf : ∀ x, Q x → Keeping Q' (f x)) {t : EvalState} (ht : t.Orderly) :
    (m.run t).2.Extends ((m >>= f).run t).2 := by
  obtain ⟨htu, hx⟩ := hm t ht
  rw [run_bind]
  cases hrun : m.run t with
  | mk r u =>
    rw [hrun] at htu hx
    cases r with
    | error e => exact htu.orderly.extends
    | ok x => exact (hf x (hx x rfl) u htu.orderly).1

theorem Follows.bind {Q : α → Prop} {Q' : β → Prop} {m m' : Eval α} {f f' : α → Eval β}
    (hm : Follows ctx ctx' a a' Q m m') (hf : ∀ x, Q x → Follows ctx ctx' a a' Q' (f x) (f' x)) :
    Follows ctx ctx' a a' Q' (m >>= f) (m' >>= f') := by
  obtain ⟨hkeep, hkeep', hfollow⟩ := hm
  refine ⟨hkeep.bind fun x hx => (hf x hx).1, hkeep'.bind fun x hx => (hf x hx).2.1, ?_⟩
  intro t t' habreast hagrees hmade
  -- what has been read and made after the first part is still there at the end
  have hend := hkeep.extends_bind (fun x hx => (hf x hx).1) habreast.first
  have hend' := hkeep'.extends_bind (fun x hx => (hf x hx).2.1) habreast.second
  obtain ⟨hresult, hu⟩ := hfollow t t' habreast (hagrees.mono hend.reads) (hmade.of_extends hend hend')
  have hQ := (hkeep t habreast.first).2
  rw [run_bind] at hagrees hmade ⊢
  rw [run_bind] at hmade ⊢
  cases hrun : m.run t with
  | mk r u =>
    cases hrun' : m'.run t' with
    | mk r' u' =>
      rw [hrun, hrun'] at hresult hu
      rw [hrun] at hagrees hmade hQ
      rw [hrun'] at hmade
      obtain rfl : r' = r := hresult
      cases r' with
      | error e => exact ⟨rfl, hu⟩
      | ok x => exact (hf x (hQ x rfl)).2.2 u u' hu hagrees hmade

/-- An operation that leaves the state alone. -/
theorem Follows.of_state {Q : α → Prop} {m m' : Eval α} (hm : ∀ t, (m.run t).2 = t) (hm' : ∀ t, (m'.run t).2 = t)
    (hQ : ∀ x, Q x) (h : ∀ t t', Abreast ctx ctx' a a' t t' → (m'.run t').1 = (m.run t).1) :
    Follows ctx ctx' a a' Q m m' := by
  refine ⟨fun t ht => ⟨?_, fun x _ => hQ x⟩, fun t ht => ⟨?_, fun x _ => hQ x⟩, fun t t' habreast _ _ => ?_⟩
  · rw [hm]
    exact ht.extends
  · rw [hm']
    exact ht.extends
  · rw [hm, hm']
    exact ⟨h t t' habreast, habreast⟩

/-! ### The operations -/

theorem follows_lookUp (hscope : ctx'.scope = ctx.scope) (hhost : ctx'.host = ctx.host) {Q : Option ObjectId → Prop}
    (hQ : ∀ o?, Q o?) (n : String) (c : UInt32) (h : Bool) :
    Follows ctx ctx' a a' Q (lookUp ctx n c h) (lookUp ctx' n c h) := by
  refine .of_state (fun t => by rw [run_lookUp]) (fun t => by rw [run_lookUp]) hQ fun t t' habreast => ?_
  simp only [run_lookUp, located, hscope, hhost, habreast.has]

theorem follows_readValue (o : ObjectId) (n : String) :
    Follows ctx ctx' a a' (fun _ => True) (readValue .everything o n) (readValue .everything o n) := by
  have hkeep : Keeping (fun _ => True) (readValue .everything o n) := by
    intro t ht
    rw [run_readValue]
    exact ⟨⟨⟨ht.known, ht.objects⟩, List.prefix_append .., List.prefix_rfl⟩, fun _ _ => trivial⟩
  refine ⟨hkeep, hkeep, fun t t' habreast hagrees _ => ?_⟩
  simp only [run_readValue] at hagrees ⊢
  have hread : .property o n ∈ reported .everything t.reads o n := by simp [reported]
  refine ⟨congrArg _ (habreast.property (hagrees.property hread)), { habreast with first := ?_, second := ?_, reads := ?_ }⟩
  · exact ⟨habreast.first.known, habreast.first.objects⟩
  · exact ⟨habreast.second.known, habreast.second.objects⟩
  · simp [reported, habreast.reads]

theorem run_readStream_eq (ctx : EvalContext) (i : StreamId) (t : EvalState) :
    (readStream ctx i).run t = (.ok (t.latest ctx.alive i), t.readingStream ctx.alive i) := rfl

theorem keeping_readStream (ctx : EvalContext) (i : StreamId) : Keeping (fun _ => True) (readStream ctx i) := by
  intro t ht
  rw [run_readStream_eq]
  exact ⟨ht.readingStream ctx.alive i, fun _ _ => trivial⟩

theorem follows_readStream (i : StreamId) :
    Follows ctx ctx' a a' (fun _ => True) (readStream ctx i) (readStream ctx' i) := by
  refine ⟨keeping_readStream ctx i, keeping_readStream ctx' i, fun t t' habreast hagrees _ => ?_⟩
  simp only [run_readStream_eq] at hagrees ⊢
  obtain ⟨halive, halive', hlatest⟩ := hagrees.stream (i := i) (List.mem_append.2 (.inr (List.mem_singleton.2 rfl)))
  have hobjects := Registry.objects_observerFor ctx.alive t.store t.registry i
  have hobjects' := Registry.objects_observerFor ctx'.alive t'.store t'.registry i
  refine ⟨congrArg _ (habreast.latest halive halive' hlatest), ?_⟩
  exact
    { first := (habreast.first.readingStream ctx.alive i).orderly
      second := (habreast.second.readingStream ctx'.alive i).orderly
      reads := by simp [readingStream, habreast.reads, Read.subject]
      objects := by simp only [readingStream, hobjects, hobjects', habreast.objects]
      has := by
        have := habreast.has
        unfold Store.hasProperty Store.object at this ⊢
        simp only [readingStream, hobjects, hobjects', this]
      property := fun {p n} hp => by
        have := habreast.property hp
        unfold Store.property Store.object at this ⊢
        simp only [readingStream, hobjects, hobjects', this]
      latest := fun {j} hj hj' h => by
        have hleft : (t.readingStream ctx.alive i).latest ctx.alive j = t.latest ctx.alive j :=
          Registry.latest_observerFor habreast.first.known i hj
        have hright : (t'.readingStream ctx'.alive i).latest ctx'.alive j = t'.latest ctx'.alive j :=
          Registry.latest_observerFor habreast.second.known i hj'
        rw [hleft, hright, habreast.latest hj hj' h] }

theorem follows_readThrough (v : Value) :
    Follows ctx ctx' a a' (fun _ => True) (readThrough ctx .everything v) (readThrough ctx' .everything v) := by
  have hpure (x : Value) : Follows ctx ctx' a a' (fun _ => True) (pure x : Eval Value) (pure x) :=
    .of_state (fun _ => rfl) (fun _ => rfl) (fun _ => trivial) fun _ _ _ => rfl
  cases hv : v.stream? with
  | none =>
    rw [readThrough_of_not_stream ctx _ hv, readThrough_of_not_stream ctx' _ hv]
    exact hpure v.orEmpty
  | some i =>
    obtain rfl := Value.eq_of_stream? hv
    rw [readThrough_stream ctx (by simp), readThrough_stream ctx' (by simp)]
    exact (follows_readStream i).bind fun x _ => hpure x.orEmpty

theorem follows_operate (op : BinaryOp) (x y : Value) :
    Follows ctx ctx' a a' (fun _ => True) (Expr.operate op x y) (Expr.operate op x y) := by
  refine .of_state (fun _ => rfl) (fun _ => rfl) (fun _ => trivial) fun t t' habreast => ?_
  change (.ok (Operator.binary t'.store.hasProperty op x y) : Except ExpressionError Value) =
    .ok (Operator.binary t.store.hasProperty op x y)
  rw [habreast.has]

theorem property_newObject (s : Store) (ps : Table String Value) (p : ObjectId) (n : String) :
    (s.newObject ps).1.property p n = if ⟨s.fresh⟩ = p then (ps.get? n).getD .undefined else s.property p n := by
  simp only [Store.newObject, Store.property, Store.object, Table.get?_insert]
  split <;> rfl

theorem hasProperty_newObject (s : Store) (ps : Table String Value) (p : ObjectId) (n : String) :
    (s.newObject ps).1.hasProperty p n = if ⟨s.fresh⟩ = p then ps.contains n else s.hasProperty p n := by
  simp only [Store.newObject, Store.hasProperty, Store.object, Table.get?_insert]
  split <;> rfl

theorem latest_newObject (t : EvalState) (ps : Table String Value) (alive : StreamId → Bool) (i : StreamId) :
    ({ t with store := (t.store.newObject ps).1 } : EvalState).latest alive i = t.latest alive i := by
  have hget : t.registry.get? (t.store.newObject ps).1 i = t.registry.get? t.store i := rfl
  unfold EvalState.latest
  cases hi : t.registry.get? t.store i with
  | some o => rw [Registry.latest_of_get? (hget.trans hi), Registry.latest_of_get? hi]; rfl
  | none => rw [Registry.latest_of_none (hget.trans hi), Registry.latest_of_none hi]; rfl

theorem keeping_newObject (es : List (String × Value)) : Keeping (fun _ => True) (newObject es) := by
  intro t ht
  rw [run_newObject]
  refine ⟨⟨ht.newObject _, List.prefix_rfl, ?_⟩, fun _ _ => trivial⟩
  have hkeys := ht.keys_newObject (Table.ofList es)
  exact hkeys ▸ List.prefix_append ..

theorem follows_newObject (es : List (String × Value)) :
    Follows ctx ctx' a a' (fun _ => True) (newObject es) (newObject es) := by
  refine ⟨keeping_newObject es, keeping_newObject es, fun t t' habreast _ hmade => ?_⟩
  rw [run_newObject, run_newObject] at hmade ⊢
  have hkeys := habreast.first.keys_newObject (Table.ofList es)
  have hkeys' := habreast.second.keys_newObject (Table.ofList es)
  -- both lists of objects have one more than before, so they are equal if one begins with the other
  have hfresh : t'.store.fresh = t.store.fresh := by
    have hlast : (⟨t'.store.fresh⟩ : ObjectId) = ⟨t.store.fresh⟩ := by
      rcases hmade with h | h
      · rw [hkeys, hkeys', habreast.objects] at h
        exact (List.append_cancel_left (h.eq_of_length (by simp)) |> List.cons.inj).1.symm
      · rw [hkeys, hkeys', habreast.objects] at h
        exact (List.append_cancel_left (h.eq_of_length (by simp)) |> List.cons.inj).1
    exact congrArg Id.number hlast
  refine ⟨?_, ?_⟩
  · simp only [Store.newObject, hfresh]
  · exact
      { first := habreast.first.newObject _
        second := habreast.second.newObject _
        reads := habreast.reads
        objects := by rw [hkeys, hkeys', habreast.objects, hfresh]
        has := by
          funext p n
          rw [hasProperty_newObject, hasProperty_newObject, habreast.has, hfresh]
        property := fun {p n} hp => by
          rw [property_newObject, property_newObject, habreast.property hp, hfresh]
        latest := fun {i} hi hi' h => by
          have h' := habreast.latest hi hi' h
          rwa [← latest_newObject t (Table.ofList es), ← latest_newObject t' (Table.ofList es)] at h' }

/-- Evaluations of an expression follow each other if all reads are reported. -/
theorem follows_rules (hscope : ctx'.scope = ctx.scope) (hhost : ctx'.host = ctx.host) (hflags : ctx'.flags = ctx.flags)
    (hconverters : ctx'.converters = ctx.converters) (hleaf : ctx.flags.leafOnly = false) :
    Rules (fun _ _ : Unit => True) ctx ctx' (fun w w' => w = .everything ∧ w' = .everything) (fun _ => True)
      (fun _ _ => True) fun u Q m m' => Follows ctx ctx' a a' (Q u) m m' where
  strict := by rw [hflags]
  scope := hscope
  watchObject := by
    rintro w w' ⟨rfl, rfl⟩
    simp [watchObject, hflags, hleaf]
  mono _ _ := trivial
  plain _ := trivial
  items := by simp
  level _ := trivial
  pure hx :=
    ⟨fun _ ht => ⟨ht.extends, fun _ h => by cases h; exact hx⟩, fun _ ht => ⟨ht.extends, fun _ h => by cases h; exact hx⟩,
      fun _ _ habreast _ _ => ⟨rfl, habreast⟩⟩
  throw x :=
    ⟨fun _ ht => ⟨ht.extends, fun _ h => by cases h⟩, fun _ ht => ⟨ht.extends, fun _ h => by cases h⟩,
      fun _ _ habreast _ _ => ⟨rfl, habreast⟩⟩
  bind hm hf := hm.bind fun x hx => hf () x trivial hx
  lookUp _ := follows_lookUp hscope hhost (fun _ _ _ => trivial) ..
  readValue := by
    rintro _ w w' o n ⟨rfl, rfl⟩ _
    exact follows_readValue o n
  readThrough := by
    rintro _ w w' v ⟨rfl, rfl⟩ _
    exact follows_readThrough v
  operate _ _ _ := follows_operate ..
  newObject _ _ := follows_newObject _
  converter := by
    intro _ _ n _ _
    refine .of_state (fun t => ?_) (fun t => ?_) (fun _ _ _ _ _ _ => trivial) fun t t' _ => ?_
    · rw [run_converter]
      split <;> rfl
    · rw [run_converter]
      split <;> rfl
    · rw [run_converter, run_converter, hconverters]
      cases ctx.converters.get? n <;> rfl

end Eval

namespace Expr

open Eval

/-- An evaluation that reports all its reads depends on nothing else: begun where there are the same objects with the
same keys, and where what it read has the same values, another one gives the same value or error and reports the same
reads in the same order. The objects that the two make are taken to have the same identities. -/
theorem evaluate_of_agreesOn (e : Expr) {ctx : EvalContext} (hleaf : ctx.flags.leafOnly = false) (alive' : StreamId → Bool)
    {a a' : EvalState} (ha : a.Orderly) (ha' : a'.Orderly) (hreads : a.reads = []) (hreads' : a'.reads = [])
    (hobjects : a'.store.objects.keys = a.store.objects.keys) (hkeys : a'.store.hasProperty = a.store.hasProperty) :
    let run := (e.evaluate ctx .everything).run a
    let run' := (e.evaluate { ctx with alive := alive' } .everything).run a'
    AgreesOn ctx { ctx with alive := alive' } a a' run.2.reads → EvalState.MakesSame run.2 run'.2 →
      run'.1 = run.1 ∧ run'.2.reads.map Read.subject = run.2.reads.map Read.subject := by
  intro run run' hagrees hmade
  have hrules : Rules (fun _ _ : Unit => True) ctx { ctx with alive := alive' }
      (fun w w' => w = .everything ∧ w' = .everything) (fun _ => True) (fun _ _ => True)
      fun u Q m m' => Follows ctx { ctx with alive := alive' } a a' (Q u) m m' := follows_rules rfl rfl rfl rfl hleaf
  have hstart : Abreast ctx { ctx with alive := alive' } a a' a a' :=
    { first := ha
      second := ha'
      reads := by rw [hreads, hreads']
      objects := hobjects
      has := hkeys
      property := id
      latest := fun _ _ => id }
  obtain ⟨-, -, hfollows⟩ := hrules.evaluate e (fun _ _ => trivial) (a := ()) ⟨rfl, rfl⟩
  obtain ⟨hresult, hend⟩ := hfollows a a' hstart hagrees hmade
  exact ⟨hresult, hend.reads⟩

private def streamContext : EvalContext where
  flags := {}
  scope := ⟨⟨2⟩, ⟨⟨0⟩, ⟨0⟩⟩, []⟩
  host := none
  converters := ∅
  alive _ := true

/-- An object that holds a subject. Nobody has read through the subject. -/
private def unopened : EvalState where
  store :=
    { objects := Table.insert ∅ ⟨0⟩ ((({} : Object).put "a$" (.stream ⟨1⟩)).put "b" (.int 1))
      streams := Table.ofList [(⟨1⟩, .subject { latest := some (.int 5), replays := true })]
      fresh := 3 }
  registry := { threshold := 16 }

/-- The same object with another value beside the subject, which was read through before. -/
private def opened : EvalState where
  store :=
    { objects := Table.insert ∅ ⟨0⟩ ((({} : Object).put "a$" (.stream ⟨1⟩)).put "b" (.int 2))
      streams := Table.ofList [(⟨1⟩, .subject { latest := some (.int 5), replays := true })]
      observers := Table.ofList [(⟨3⟩, { value := .int 5 })]
      fresh := 4 }
  registry := { threshold := 16, entries := Table.ofList [(⟨1⟩, ⟨3⟩)] }

/-- The case of a new object that holds the latest value of the subject. -/
theorem evaluate_of_agreesOn_object :
    let e := object ["k"] [streamScope "a$" 0 false]
    let run := (e.evaluate streamContext .everything).run unopened
    let run' := (e.evaluate { streamContext with alive := fun _ => true } .everything).run opened
    run'.1 = run.1 ∧ run'.2.reads.map Read.subject = run.2.reads.map Read.subject := by
  have hobject (a : EvalState) (h : a.store.objects.keys = [⟨0⟩]) (hf : 0 < a.store.fresh) {p : ObjectId}
      (hp : p ∈ a.store.objects.keys) : p.number < a.store.fresh := by
    rw [h] at hp
    obtain rfl := List.mem_singleton.1 hp
    exact hf
  have hfirst : unopened.Orderly := ⟨⟨fun ho => (by cases ho), fun ho => (by cases ho)⟩, hobject _ rfl (by decide)⟩
  have hsecond : opened.Orderly := by
    refine ⟨⟨fun {o x} ho => ?_, fun {i o} ho => ?_⟩, hobject _ rfl (by decide)⟩
    · have hkey : o ∈ opened.store.observers.keys := Table.mem_keys.2 (by rw [ho]; rfl)
      obtain rfl := List.mem_singleton.1 (show o ∈ [⟨3⟩] from hkey)
      decide
    · have hvalue : o ∈ opened.registry.entries.values := Table.mem_values_of_get? ho
      obtain rfl := List.mem_singleton.1 (show o ∈ [⟨3⟩] from hvalue)
      decide
  have hkeys : opened.store.hasProperty = unopened.store.hasProperty := by
    funext o n
    simp only [Store.hasProperty, Store.object, opened, unopened, Table.get?_insert]
    split
    · simp only [Option.getD_some, Object.has_put]
    · rfl
  have hreads : ((object ["k"] [streamScope "a$" 0 false]).evaluate streamContext .everything |>.run unopened).2.reads =
      [.property ⟨0⟩ "a$", .stream ⟨1⟩ ⟨3⟩] := by decide +kernel
  refine evaluate_of_agreesOn _ rfl _ hfirst hsecond rfl rfl rfl hkeys ⟨fun {p n} hp => ?_, fun {i o} hi => ?_⟩ (.inl ?_)
  · rw [hreads] at hp
    obtain ⟨rfl, rfl⟩ : p = ⟨0⟩ ∧ n = "a$" := by simpa using hp
    simp [opened, unopened, Store.property, Store.object, Table.get?_insert, Object.get_put]
  · rw [hreads] at hi
    obtain ⟨rfl, rfl⟩ : i = ⟨1⟩ ∧ o = ⟨3⟩ := by simpa using hi
    have hnew : unopened.latest streamContext.alive ⟨1⟩ = .int 5 := Registry.latest_of_none rfl
    have hold : opened.latest (fun _ => true) ⟨1⟩ = .int 5 := Registry.latest_of_get? (o := ⟨3⟩) rfl
    exact ⟨rfl, rfl, hold.trans hnew.symm⟩
  · decide +kernel

end Expr

end DataBinding
