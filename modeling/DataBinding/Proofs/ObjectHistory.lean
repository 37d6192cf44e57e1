import DataBinding.Proofs.OneObserver

/-!
# What becomes of an object

A session does nothing to an object that it has but write its properties, let listeners of them come and go, and forget
those that are gone (`Move.object_update`). So an object after a run is the one before it after such updates, whoever
asked for them (`exists_after_play`): what holds of all sequences of updates holds in every run. A property keeps its
value unless it is written itself (`Move.property`).
-/

namespace DataBinding

namespace Session

variable {s : Session} {o : ObjectId} {n : String} {e : Effect} {E : Effect → Prop} {a b : Ghost × Session}
  {bs : List Act}

/-- A move leaves an object alone or updates it once. -/
theorem Move.object_update (hm : Move e a b) (ho : o.number < a.2.store.fresh) :
    b.2.store.object o = a.2.store.object o ∨
      ∃ u, b.2.store.object o = (a.2.store.object o).update u ∧ ∀ n v, u = .put n v → e = .puts o n := by
  cases hm with
  | opening =>
    rw [Store.openObserver_eq]
    exact .inl rfl
  | subscribing =>
    rw [Store.subscribe_eq]
    exact .inl rfl
  | destroying | erasing | releasing => exact .inl (object_close ..)
  | @newObject g s ps =>
    left
    unfold Store.object Store.newObject
    rw [Table.get?_insert, if_neg]
    rintro rfl
    exact Nat.lt_irrefl _ ho
  | @object g s p u _ hu =>
    rw [Store.object_setObject]
    split
    next h =>
      subst h
      exact .inr ⟨u, rfl, fun n v he => absurd he (hu n v)⟩
    · exact .inl rfl
  | @putting g s p m w =>
    rw [Store.object_setObject]
    split
    next h =>
      subst h
      refine .inr ⟨.put m w, rfl, ?_⟩
      rintro n v ⟨rfl, rfl⟩
      rfl
    · exact .inl rfl
  | _ => exact .inl rfl

theorem Object.get_update {x : Object} {u : Object.Update} (hu : ∀ v, u ≠ .put n v) : (x.update u).get n = x.get n := by
  cases u with
  | put m w =>
    rw [Object.update, Object.get_put, if_neg]
    rintro rfl
    exact hu w rfl
  | watch | unwatch | sweep =>
    unfold Object.get
    rw [Object.properties_update (by simp)]

/-- A property changes when it is written, and at no other move. -/
theorem Move.property (hm : Move e a b) (ho : o.number < a.2.store.fresh) (he : e ≠ .puts o n) :
    b.2.store.property o n = a.2.store.property o n := by
  unfold Store.property
  rcases hm.object_update ho with hsame | ⟨u, hu, hput⟩
  · rw [hsame]
  · rw [hu, Object.get_update fun v hv => he (hput n v hv)]

theorem Moves.exists_after (hm : Moves E a b) (ho : o.number < a.2.store.fresh) :
    ∃ us, b.2.store.object o = (a.2.store.object o).after us := by
  induction hm with
  | refl => exact ⟨[], rfl⟩
  | tail hm hlast ih =>
    obtain ⟨f, -, hlast⟩ := hlast
    obtain ⟨us, hus⟩ := ih
    rcases hlast.object_update (Nat.lt_of_lt_of_le ho (Moves.fresh_le hm)) with hsame | ⟨u, hu, -⟩
    · exact ⟨us, hsame.trans hus⟩
    · exact ⟨us ++ [u], by rw [hu, hus, Object.after_append]; rfl⟩

/-- Whatever happens in a run, an object is updated. -/
theorem exists_after_play (hsound : Sound (· ∈ s.held) s) (ho : o.number < s.store.fresh) (bs : List Act) :
    ∃ us, (s.play bs).store.object o = (s.store.object o).after us := by
  induction bs generalizing s with
  | nil => exact ⟨[], rfl⟩
  | cons a bs ih =>
    obtain ⟨g, hm⟩ := moves_act hsound (fun _ _ _ => False) a
    obtain ⟨us, hus⟩ := Moves.exists_after hm ho
    obtain ⟨vs, hvs⟩ := ih (hsound.act a) (Nat.lt_of_lt_of_le ho (Moves.fresh_le hm))
    exact ⟨us ++ vs, by rw [play_cons, hvs, hus, Object.after_append]⟩

/-! ### Listening to a property -/

/-- To listen to a property is to watch it, under the token that the host remembers. -/
theorem listen_property (s : Store) (l : Listener) (o : ObjectId) (n : String) :
    (s.listen l (.property o n)).1.object o = (s.object o).update (.watch n l) ∧
      (s.listen l (.property o n)).2 = ((s.object o).listenersOf n).nextToken := by
  constructor
  · simp only [Store.listen]
    rw [Store.object_setObject, if_pos rfl]
    rfl
  · rfl

theorem unlisten_property (s : Session) (o : ObjectId) (n : String) (t : Nat) :
    (s.unlisten (.property o n) t).store.object o = (s.store.object o).update (.unwatch n t) := by
  simp only [unlisten, Store.unlisten]
  rw [Store.object_setObject, if_pos rfl]
  rfl

end Session

end DataBinding
