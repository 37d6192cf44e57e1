import DataBinding.Proofs.AlikeRegistries
import DataBinding.Proofs.Dependencies
import DataBinding.Proofs.Inquiry
import DataBinding.Proofs.OneWrite

/-!
# Properties that are not asked for

Writing one property changes nothing for an inquiry that does not ask for it. Three questions can be about a property:
what it holds, whether the object has it, and where its name belongs; the last two only if it was not there before.
`Question.Misses` says that a question is about none of that. If all the questions of an inquiry miss the property, then
answering them from a store that differs in that property at most (`Store.DiffersAt`) leads to the same answers, the
same result and again to stores that differ there at most (`Store.DiffersAt.run`). A write can also keep streams alive
that would be gone without it; if no such stream is asked for, that makes no difference either (`Inquiry.run_of_alike`).
-/

namespace DataBinding

/-- The answer is not up to the property `n` of the object `o`; `had` tells whether it was there all the time. -/
def Question.Misses (o : ObjectId) (n : String) (had : Bool) : Question → Prop
  | place m _ _ => had = true ∨ m ≠ n
  | property p m => ¬(p = o ∧ m = n)
  | presence p m => had = true ∨ ¬(p = o ∧ m = n)
  | stream _ | object _ | converter _ => True

/-- Where the property was there all the time, only what it holds can make a difference. -/
theorem Question.misses_of_had {o : ObjectId} {n : String} {q : Question} (h : q ≠ .property o n) :
    q.Misses o n true := by
  cases q
  case property p m =>
    rintro ⟨rfl, rfl⟩
    exact h rfl
  case place | presence => exact .inl rfl
  all_goals trivial

/-- Answering the question makes nothing and opens nothing. -/
def Question.IsStill : Question → Prop
  | place .. | property .. | presence .. | converter _ => True
  | stream _ | object _ => False

namespace Store

variable {s : Store} {o : ObjectId} {n : String} {had : Bool}

/-- The objects have the same properties, with the possible exception of the property `n` of the object `o`. -/
structure SameBut (o : ObjectId) (n : String) (s s' : Store) : Prop where
  property {p : ObjectId} {m : String} : ¬(p = o ∧ m = n) → s'.property p m = s.property p m
  hasProperty {p : ObjectId} {m : String} : ¬(p = o ∧ m = n) → s'.hasProperty p m = s.hasProperty p m

/-- The stores differ at most in the property `n` of the object `o`, which is there in the second one if it is there in
the first; `had` tells whether it is. -/
structure DiffersAt (o : ObjectId) (n : String) (had : Bool) (s s' : Store) : Prop extends SameBut o n s s' where
  old : o.number < s.fresh
  before : s.hasProperty o n = had
  after : had = true → s'.hasProperty o n = true
  streams : s'.streams = s.streams
  observers : s'.observers = s.observers
  fresh : s'.fresh = s.fresh

/-- Where a property only takes another value, the same properties are there. -/
theorem SameBut.hasProperty_eq {s' : Store} (h : SameBut o n s s') (hs : s.hasProperty o n = true)
    (hs' : s'.hasProperty o n = true) (p : ObjectId) (m : String) : s'.hasProperty p m = s.hasProperty p m := by
  by_cases hpm : p = o ∧ m = n
  · obtain ⟨rfl, rfl⟩ := hpm
    rw [hs, hs']
  · exact h.hasProperty hpm

theorem SameBut.of_objects {s' t t' : Store} (h : SameBut o n s s') (ht : t.objects = s.objects)
    (ht' : t'.objects = s'.objects) : SameBut o n t t' where
  property hpm := by
    simp only [Store.property, object, ht, ht']
    exact h.property hpm
  hasProperty hpm := by
    simp only [Store.hasProperty, object, ht, ht']
    exact h.hasProperty hpm

end Store

/-- A question that misses the property has the same answer in both stores. -/
theorem Question.answer_of_sameBut {ctx : EvalContext} {watched had : Bool} {s s' : Store} {r : Registry} {o : ObjectId}
    {n : String} (h : s.SameBut o n s') (hs : s.hasProperty o n = had) (hs' : had = true → s'.hasProperty o n = true)
    {q : Question} (hq : q.IsStill) (hmiss : q.Misses o n had) :
    (q.answer ctx watched s' r).1 = (q.answer ctx watched s r).1 := by
  cases q
  case place m a f =>
    refine Eval.located_of_hasProperty (fun l _ => ?_) a f
    rcases hmiss with rfl | hm
    · exact ⟨h.hasProperty_eq hs (hs' rfl) .., h.hasProperty_eq hs (hs' rfl) ..⟩
    · exact ⟨h.hasProperty fun hpm => hm hpm.2, h.hasProperty fun hpm => hm hpm.2⟩
  case property p m => exact h.property hmiss
  case presence p m =>
    rcases hmiss with rfl | hpm
    · exact h.hasProperty_eq hs (hs' rfl) p m
    · exact h.hasProperty hpm
  case converter m => rfl
  all_goals cases hq

namespace Store

variable {s : Store} {o : ObjectId} {n : String} {had : Bool}

/-! ### Opening observers -/

theorem opened_setObjects (s : Store) (i : StreamId) (t : Table ObjectId Object) (c : Table CollectionId Listeners) :
    { s with objects := t, collections := c }.opened i = s.opened i := by
  unfold opened subscription subscribe
  cases s.streams.get? i <;> rfl

/-- Opening an observer is a matter of streams and observers. -/
theorem observerFor_setObjects (alive : StreamId → Bool) (s : Store) (r : Registry) (i : StreamId)
    (t : Table ObjectId Object) (c : Table CollectionId Listeners) :
    r.observerFor alive { s with objects := t, collections := c } i =
      ({ (r.observerFor alive s i).1 with objects := t, collections := c }, (r.observerFor alive s i).2) := by
  have hget : r.get? { s with objects := t, collections := c } i = r.get? s i := rfl
  cases h : r.get? s i with
  | some o => rw [Registry.observerFor_of_get? h, Registry.observerFor_of_get? (hget.trans h)]
  | none =>
    rw [Registry.observerFor_of_none h, Registry.observerFor_of_none (hget.trans h)]
    simp only [openObserver_eq, opened_setObjects]
    rfl

namespace DiffersAt

variable {s' : Store}

theorem observerFor (h : DiffersAt o n had s s') (alive : StreamId → Bool) (r : Registry) (i : StreamId) :
    (r.observerFor alive s' i).2 = (r.observerFor alive s i).2 ∧
      DiffersAt o n had (r.observerFor alive s i).1 (r.observerFor alive s' i).1 := by
  have hs' : s' = { s with objects := s'.objects, collections := s'.collections } := by
    obtain ⟨-, -, -, -, hstreams, hobservers, hfresh⟩ := h
    cases s
    cases s'
    simp only [mk.injEq, true_and]
    exact ⟨hstreams, hobservers, hfresh⟩
  have hobjects : (r.observerFor alive s i).1.objects = s.objects := Registry.objects_observerFor ..
  have hfresh := Registry.fresh_observerFor alive s r i
  rw [hs', observerFor_setObjects]
  refine ⟨rfl, ?_⟩
  exact
    { toSameBut := h.toSameBut.of_objects hobjects rfl
      old := Nat.lt_of_lt_of_le h.old hfresh
      before := by
        simp only [Store.hasProperty, object, hobjects]
        exact h.before
      after := h.after
      streams := rfl
      observers := rfl
      fresh := rfl }

/-! ### Answering -/

theorem newObject (h : DiffersAt o n had s s') (ps : Table String Value) :
    DiffersAt o n had (s.newObject ps).1 (s'.newObject ps).1 := by
  have hne : (⟨s.fresh⟩ : ObjectId) ≠ o := fun ho => Nat.ne_of_gt h.old (congrArg Id.number ho)
  exact
    { property := fun hpm => by rw [Eval.property_newObject, Eval.property_newObject, h.fresh, h.property hpm]
      hasProperty := fun hpm => by
        rw [Eval.hasProperty_newObject, Eval.hasProperty_newObject, h.fresh, h.hasProperty hpm]
      old := Nat.lt_succ_of_lt h.old
      before := by
        rw [Eval.hasProperty_newObject, if_neg hne]
        exact h.before
      after := fun hhad => by
        rw [Eval.hasProperty_newObject, h.fresh, if_neg hne]
        exact h.after hhad
      streams := h.streams
      observers := h.observers
      fresh := congrArg (· + 1) h.fresh }

/-- A question that misses the property has the same answer in both stores. -/
theorem answer (h : DiffersAt o n had s s') (ctx : EvalContext) (watched : Bool) (r : Registry) (q : Question)
    (hq : q.Misses o n had) :
    (q.answer ctx watched s' r).1 = (q.answer ctx watched s r).1 ∧
      (q.answer ctx watched s' r).2.2 = (q.answer ctx watched s r).2.2 ∧
        DiffersAt o n had (q.answer ctx watched s r).2.1 (q.answer ctx watched s' r).2.1 := by
  cases q with
  | place m a f => exact ⟨Question.answer_of_sameBut h.toSameBut h.before h.after trivial hq, rfl, h⟩
  | property p m => exact ⟨Question.answer_of_sameBut h.toSameBut h.before h.after trivial hq, rfl, h⟩
  | presence p m => exact ⟨Question.answer_of_sameBut h.toSameBut h.before h.after trivial hq, rfl, h⟩
  | stream i =>
    cases watched with
    | false => exact ⟨rfl, rfl, h⟩
    | true =>
      obtain ⟨hsame, hdiffers⟩ := h.observerFor ctx.alive r i
      simp only [Question.answer, if_true, hsame, Eval.cached, hdiffers.observers, hdiffers, and_self]
  | object entries => exact ⟨congrArg Id.mk h.fresh, rfl, h.newObject _⟩
  | converter m => exact ⟨rfl, rfl, h⟩

/-- An inquiry that misses the property goes the same way in both stores. -/
theorem run {α : Type} (h : DiffersAt o n had s s') {ctx : EvalContext} {watched : Bool} {r : Registry} (m : Inquiry α)
    (hm : ∀ x ∈ (m.run ctx watched s r).asked, x.question.Misses o n had) :
    (m.run ctx watched s' r).result = (m.run ctx watched s r).result ∧
      (m.run ctx watched s' r).asked = (m.run ctx watched s r).asked ∧
      (m.run ctx watched s' r).registry = (m.run ctx watched s r).registry ∧
        DiffersAt o n had (m.run ctx watched s r).store (m.run ctx watched s' r).store := by
  induction m generalizing s s' r with
  | done a => exact ⟨rfl, rfl, rfl, h⟩
  | fail x => exact ⟨rfl, rfl, rfl, h⟩
  | ask p q next ih =>
    simp only [Inquiry.run, List.forall_mem_cons] at hm ⊢
    obtain ⟨hanswer, hregistry, hdiffers⟩ := h.answer ctx watched r q hm.1
    rw [hanswer, hregistry]
    obtain ⟨hresult, hasked, hregistry', hdiffers'⟩ := ih _ hdiffers hm.2
    exact ⟨hresult, congrArg _ hasked, hregistry', hdiffers'⟩

end DiffersAt

end Store

/-! ### Who else is alive -/

section

variable {H : StreamId → Prop} {ctx : EvalContext} {alive' : StreamId → Bool} {watched : Bool} {s : Store}
  {r r' : Registry}

theorem Question.fresh_answer (q : Question) : s.fresh ≤ (q.answer ctx watched s r).2.1.fresh := by
  cases q with
  | stream i =>
    cases watched with
    | false => exact Nat.le_refl _
    | true => exact Registry.fresh_observerFor ctx.alive s r i
  | object entries => exact Nat.le_succ _
  | _ => exact Nat.le_refl _

/-- Registries that are alike for the streams `H` give the same answer to a question that is about one of them, if it is
about a stream at all. -/
theorem Question.answer_of_alike (h : r.Alike H s r') (watched : Bool) (ha : ∀ i, H i → ctx.alive i = true)
    (ha' : ∀ i, H i → alive' i = true) (hold : ∀ i, H i → i.number < s.fresh) {q : Question}
    (hq : ∀ i, q = .stream i → H i) :
    (q.answer { ctx with alive := alive' } watched s r').1 = (q.answer ctx watched s r).1 ∧
      (q.answer { ctx with alive := alive' } watched s r').2.1 = (q.answer ctx watched s r).2.1 ∧
        (q.answer ctx watched s r).2.2.Alike H (q.answer ctx watched s r).2.1
          (q.answer { ctx with alive := alive' } watched s r').2.2 := by
  cases q with
  | stream i =>
    cases watched with
    | false => exact ⟨rfl, rfl, h⟩
    | true =>
      obtain ⟨hstore, hobserver, halike⟩ := h.observerFor ha ha' (hq i rfl) (hold i (hq i rfl))
      simp only [answer, if_true, hstore, hobserver, halike, and_self]
  | object entries => exact ⟨rfl, rfl, h.later (Nat.le_succ _) (fun _ _ => id) fun _ _ => id⟩
  | place | property | presence | converter => exact ⟨rfl, rfl, h⟩

/-- Which streams are alive beside those that are asked for makes no difference. -/
theorem Inquiry.run_of_alike {α : Type} (h : r.Alike H s r') (ha : ∀ i, H i → ctx.alive i = true)
    (ha' : ∀ i, H i → alive' i = true) (hold : ∀ i, H i → i.number < s.fresh) (m : Inquiry α)
    (hm : ∀ x ∈ (m.run ctx watched s r).asked, ∀ i, x.question = .stream i → H i) :
    (m.run { ctx with alive := alive' } watched s r').result = (m.run ctx watched s r).result ∧
      (m.run { ctx with alive := alive' } watched s r').asked = (m.run ctx watched s r).asked := by
  induction m generalizing s r r' with
  | done a => exact ⟨rfl, rfl⟩
  | fail x => exact ⟨rfl, rfl⟩
  | ask p q next ih =>
    simp only [run, List.forall_mem_cons] at hm ⊢
    obtain ⟨hanswer, hstore, halike⟩ := Question.answer_of_alike h watched ha ha' hold hm.1
    rw [hanswer, hstore]
    obtain ⟨hresult, hasked⟩ :=
      ih _ halike (fun i hi => Nat.lt_of_lt_of_le (hold i hi) q.fresh_answer) hm.2
    exact ⟨hresult, congrArg _ hasked⟩

end

namespace Session

/-! ### Writing -/

theorem properties_write (s : Session) (o : ObjectId) (n : String) (v : Value) (p : ObjectId) :
    ((s.write o n v).session.store.object p).properties =
      if o = p then (s.store.object o).properties.insert n v else (s.store.object p).properties := by
  have hput : ((s.store.setObject o ((s.store.object o).put n v)).object p).properties =
      if o = p then (s.store.object o).properties.insert n v else (s.store.object p).properties := by
    rw [Store.object_setObject]
    split <;> rfl
  unfold write
  dsimp only
  split
  · exact ((Store.relists_sweep ..).properties p).trans hput
  · exact hput

/-- A property that was written is there. -/
theorem hasProperty_write (s : Session) (o : ObjectId) (n : String) (v : Value) (p : ObjectId) (m : String) :
    (s.write o n v).session.store.hasProperty p m = (decide (p = o ∧ m = n) || s.store.hasProperty p m) := by
  unfold Store.hasProperty Object.has Table.contains
  rw [properties_write]
  by_cases hp : o = p
  · subst hp
    rw [if_pos rfl, Table.get?_insert]
    by_cases hn : n = m
    · simp [hn]
    · simp [hn, Ne.symm hn]
  · simp [hp, Ne.symm hp]

theorem fresh_write (s : Session) (o : ObjectId) (n : String) (v : Value) :
    (s.write o n v).session.store.fresh = s.store.fresh := by
  unfold write
  dsimp only
  split <;> rfl

/-- A write makes a difference to that property alone. -/
theorem sameBut_write (s : Session) (o : ObjectId) (n : String) (v : Value) :
    s.store.SameBut o n (s.write o n v).session.store where
  property := property_write_of_ne s v
  hasProperty hpm := by rw [hasProperty_write, decide_eq_false hpm, Bool.false_or]

theorem differsAt_write (s : Session) {o : ObjectId} (ho : o.number < s.store.fresh) (n : String) (v : Value) :
    s.store.DiffersAt o n (s.store.hasProperty o n) (s.write o n v).session.store where
  toSameBut := sameBut_write s o n v
  old := ho
  before := rfl
  after _ := by simp [hasProperty_write]
  streams := streams_write ..
  observers := observers_write ..
  fresh := fresh_write ..

end Session

end DataBinding
