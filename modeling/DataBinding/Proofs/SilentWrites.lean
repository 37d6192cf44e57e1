import DataBinding.Proofs.EqualValues
import DataBinding.Proofs.Unread

/-!
# Silent writes

A write stores its value, whatever was there before, and it is silent, replying that nothing changed and telling nobody,
if the value counts as equal to the one before. An absent property counts as undefined. So what is silent and what leaves
the object as it was are two things: the first goes by what counts as equal (`changes_eq_false_iff`), the second by what
is the same and by the names that the object has (`properties_put_iff`). They come apart in three places, and only there:
undefined written to an absent name, a zero written over the other one, and what is not a number (`silent_write`).
-/

namespace DataBinding

/-- Another value for a key that is there leaves the keys as they are. -/
theorem Table.keys_insert_of_contains {κ α : Type} [Ord κ] [DecidableEq κ] [Std.TransOrd κ] [Std.LawfulEqOrd κ]
    {t : Table κ α} {k : κ} (a : α) (h : t.contains k = true) : (t.insert k a).keys = t.keys := by
  obtain ⟨es, hs⟩ := t
  change (lookup k es).isSome = true at h
  change (place k a es).map (·.1) = es.map (·.1)
  induction es with
  | nil => cases h
  | cons e es ih =>
    rw [List.pairwise_cons] at hs
    unfold lookup at h
    unfold place
    split at h
    next he => simp [he]
    next he =>
      obtain ⟨b, hb⟩ := Option.isSome_iff_exists.1 h
      have hlt : compare e.1 k = .lt := hs.1 _ (mem_of_lookup hb)
      have hnot : ¬(compare k e.1).isLT := by
        rw [Std.OrientedCmp.gt_of_lt hlt]
        simp
      simp [he, hnot, ih hs.2 h]

namespace Object

variable {x : Object} {n : String} {v : Value}

theorem has_of_get (h : x.get n ≠ .undefined) : x.has n = true := by
  unfold get at h
  unfold has Table.contains
  cases hx : x.properties.get? n with
  | none => simp [hx] at h
  | some w => rfl

/-- Only an absent property and undefined count as undefined. -/
theorem has_of_unsigned (h : (x.get n).unsigned = v.unsigned) (hv : v ≠ .undefined) : x.has n = true := by
  refine has_of_get fun hundefined => hv (Value.unsigned_eq_undefined_iff.1 ?_)
  rw [← h]
  exact Value.unsigned_eq_undefined_iff.2 hundefined

theorem changes_eq_false_iff :
    x.changes n v = false ↔ (x.get n).unsigned = v.unsigned ∧ (x.get n).hasNaN = false := by
  rw [changes, Bool.not_eq_false', Value.equals_iff]

/-- A write leaves an object as it is if it had the name, with that very value. -/
theorem properties_put_iff : (x.put n v).properties = x.properties ↔ x.has n = true ∧ x.get n = v := by
  have hget : x.has n = true ∧ x.get n = v ↔ x.properties.get? n = some v := by
    unfold has Table.contains get
    cases x.properties.get? n <;> simp
  rw [hget]
  refine ⟨fun h => ?_, Table.insert_of_get?⟩
  rw [← h]
  exact (Table.get?_insert ..).trans (if_pos rfl)

theorem has_put_of_has (h : x.has n = true) (m : String) : (x.put n v).has m = x.has m := by
  rw [has_put]
  by_cases hm : n = m
  · subst hm
    simp [h]
  · simp [hm]

theorem keys_put (h : x.has n = true) : (x.put n v).properties.keys = x.properties.keys :=
  Table.keys_insert_of_contains v h

end Object

namespace Session

variable {s : Session} {o : ObjectId} {n : String} {v : Value}

theorem write_of_not_changes (h : (s.store.object o).changes n v = false) :
    s.write o n v = { session := { s with store := s.store.setObject o ((s.store.object o).put n v) } } := by
  simp [write, h]

/-- Who listens to a property is told of a change, and nobody else. -/
theorem tasks_write_of_changes (h : (s.store.object o).changes n v = true) :
    (s.write o n v).tasks = [.notify (.property o n) v ((s.store.object o).get n)
      ((s.write o n v).session.store.listeners (.property o n)).audience] := by
  simp only [write]
  rw [if_pos h]
  rfl

theorem tasks_write_eq_nil_iff : (s.write o n v).tasks = [] ↔ (s.store.object o).changes n v = false := by
  constructor
  · intro h
    by_contra hchanges
    rw [tasks_write_of_changes (by simpa using hchanges)] at h
    cases h
  · intro h
    rw [write_of_not_changes h]

/-- The command of the host that writes a property makes the value, writes it, and replies whether that was a change. -/
theorem execute_set {t : Session} {obj : String} {value : HostValue} (ho : s.named? .object obj = some o)
    (hv : s.valueOf? value = some (t, v)) :
    s.execute (.set obj n value) = (t.write o n v).answer (.flag ((t.store.object o).changes n v)) := by
  simp [execute, answer?, answerSet, ho, hv]

/-- A write is silent exactly if the value before and the new one are the same up to the signs of zeros, without
anything in them that is not a number; an absent property counts as undefined. Then nothing happens but that the new
value is stored: no other property changes, and no name is gained unless it was absent and is given undefined. The
object is as it was if it had the name with that very value. So, but for undefined under an absent name, for zeros of
unlike signs and for what is not a number, a write is silent exactly if it leaves the object as it was. -/
theorem silent_write (s : Session) (o : ObjectId) (n : String) (v : Value) :
    let x := s.store.object o
    let r := s.write o n v
    let x' := r.session.store.object o
    let silent := x.changes n v = false ∧ r.tasks = []
    (∀ (t : Session) (obj : String) (value : HostValue), t.named? .object obj = some o →
      t.valueOf? value = some (s, v) →
        ((t.execute (.set obj n value)).reply = .flag false ∧ (t.execute (.set obj n value)).tasks = [] ↔ silent)) ∧
    (silent ↔ (x.get n).unsigned = v.unsigned ∧ (x.get n).hasNaN = false) ∧
    (¬silent → x.changes n v = true ∧ r.tasks =
      [.notify (.property o n) v (x.get n) (r.session.store.listeners (.property o n)).audience]) ∧
    (silent → r.session = { s with store := s.store.setObject o (x.put n v) }) ∧
    (x'.get n = v ∧ x'.has n = true ∧ ∀ m ≠ n, x'.get m = x.get m ∧ x'.has m = x.has m) ∧
    (x.has n = true ∨ silent ∧ v ≠ .undefined →
      x'.properties.keys = x.properties.keys ∧ ∀ m, x'.has m = x.has m) ∧
    (x'.properties = x.properties ↔ x.has n = true ∧ x.get n = v) ∧
    (x.get n = v → (silent ↔ v.hasNaN = false)) ∧
    ((x.has n = true ∨ v ≠ .undefined) → (x.get n).hasNaN = false →
      ((x.get n).unsigned = v.unsigned → x.get n = v) → (silent ↔ x'.properties = x.properties)) := by
  intro x r x' silent
  have hsilent : silent ↔ x.changes n v = false := and_iff_left_of_imp tasks_write_eq_nil_iff.2
  have halike : silent ↔ (x.get n).unsigned = v.unsigned ∧ (x.get n).hasNaN = false :=
    hsilent.trans Object.changes_eq_false_iff
  have hput : x'.properties = (x.put n v).properties := (properties_write s o n v o).trans (if_pos rfl)
  have hsame : x'.properties = x.properties ↔ x.has n = true ∧ x.get n = v := by
    rw [hput]
    exact Object.properties_put_iff
  have hget (m : String) : x'.get m = if n = m then v else x.get m := by
    rw [← x.get_put]
    exact congrArg (fun t => (t.get? m).getD .undefined) hput
  have hhas (m : String) : x'.has m = (x.put n v).has m := congrArg (fun t => t.contains m) hput
  refine ⟨fun t obj value ho hv => ?_, halike, fun h => ?_, fun h => ?_, ⟨?_, ?_, fun m hm => ⟨?_, ?_⟩⟩, fun h => ?_,
    hsame, ?_, fun hkey hnum hsigns => ?_⟩
  · rw [execute_set ho hv]
    simp [silent, Reaction.answer, x, r]
  · have hchanges : x.changes n v = true := by
      rw [hsilent] at h
      simpa using h
    exact ⟨hchanges, tasks_write_of_changes hchanges⟩
  · simp only [r, write_of_not_changes (hsilent.1 h)]
    rfl
  · simp [hget]
  · simp [hhas, Object.has_put]
  · rw [hget, if_neg (Ne.symm hm)]
  · simp [hhas, Object.has_put, Ne.symm hm]
  · have hkey : x.has n = true := h.elim id fun ⟨hs, hv⟩ => Object.has_of_unsigned (halike.1 hs).1 hv
    refine ⟨?_, fun m => ?_⟩
    · rw [hput]
      exact Object.keys_put hkey
    · rw [hhas]
      exact Object.has_put_of_has hkey m
  · rintro rfl
    rw [halike]
    exact and_iff_right rfl
  · rw [halike, hsame]
    constructor
    · rintro ⟨hunsigned, -⟩
      exact ⟨hkey.elim id (Object.has_of_unsigned hunsigned), hsigns hunsigned⟩
    · rintro ⟨-, rfl⟩
      exact ⟨rfl, hnum⟩

/-- A zero inside of nested lists is written over the other one. -/
theorem silent_write_of_zeros :
    let s := initial.play [.command (.makeObject "a" [("p", .array [.int 1, .array [.float 0.0]])])]
    let c : Command := .set "a" "p" (.array [.int 1, .array [.float (-0.0)]])
    (s.execute c).reply = .flag false ∧ (s.execute c).tasks = [] := by
  intro s c
  have ho : s.named? .object "a" = some ⟨1⟩ := by decide +kernel
  have hbefore : (s.store.object ⟨1⟩).get "p" = .array [.int 1, .array [.float 0.0]] := rfl
  have hzero : Value.positiveZero 0.0 = Value.positiveZero (-0.0) := by decide +kernel
  have hnumber : Float.isNaN 0.0 = false := by decide +kernel
  obtain ⟨hset, halike, -⟩ := silent_write s ⟨1⟩ "p" (.array [.int 1, .array [.float (-0.0)]])
  refine (hset s "a" _ ho rfl).2 (halike.2 ?_)
  rw [hbefore]
  constructor
  · simp [Value.unsigned, Value.unsignedAll, hzero]
  · simp only [Value.hasNaN, Value.anyNaN, hnumber, Bool.or_false]

/-- What is not a number is told of though the object stays as it was; undefined comes under an absent name, and a zero
takes the place of the other one, in silence. -/
theorem silence_is_not_sameness :
    let s := initial.play [.command (.makeObject "a" [("x", .float (0.0 / 0.0)), ("y", .float 0.0)])]
    let o : ObjectId := ⟨1⟩
    let before := s.store.object o
    let after (c : Command) := (s.execute c).session.store.object o
    let silent (c : Command) := (s.execute c).reply = .flag false ∧ (s.execute c).tasks = []
    s.named? .object "a" = some o ∧
    (¬silent (.set "a" "x" (.float (0.0 / 0.0))) ∧
      (after (.set "a" "x" (.float (0.0 / 0.0)))).properties = before.properties) ∧
    (silent (.set "a" "y" (.float (-0.0))) ∧
      (after (.set "a" "y" (.float (-0.0)))).properties ≠ before.properties) ∧
    (silent (.set "a" "z" .undefined) ∧ (after (.set "a" "z" .undefined)).properties.keys ≠ before.properties.keys) := by
  intro s o before after silent
  have ho : s.named? .object "a" = some o := by decide +kernel
  have hsilent {n : String} {value : HostValue} {v : Value} (hv : s.valueOf? value = some (s, v)) :
      silent (.set "a" n value) ↔ before.changes n v = false := by
    simp only [silent, execute_set ho hv, Reaction.answer, tasks_write_eq_nil_iff, Reply.flag.injEq, and_self, before]
  have hafter {n : String} {value : HostValue} {v : Value} (hv : s.valueOf? value = some (s, v)) :
      (after (.set "a" n value)).properties = (before.put n v).properties := by
    simp only [after, execute_set ho hv, Reaction.answer]
    exact (properties_write s o n v o).trans (if_pos rfl)
  have hchanges : before.changes "x" (.float (0.0 / 0.0)) = true ∧ before.changes "y" (.float (-0.0)) = false ∧
      before.changes "z" .undefined = false ∧ (before.put "z" .undefined).properties.keys ≠ before.properties.keys ∧
      before.has "x" = true ∧ (0.0 : Float) ≠ -0.0 := by decide +kernel
  obtain ⟨hx, hy, hz, hkeys, hhas, hzeros⟩ := hchanges
  refine ⟨ho, ⟨fun h => ?_, ?_⟩, ⟨(hsilent rfl).2 hy, fun h => ?_⟩, (hsilent rfl).2 hz, ?_⟩
  · exact absurd ((hsilent rfl).1 h) (by simp [hx])
  · rw [hafter rfl]
    exact Object.properties_put_iff.2 ⟨hhas, rfl⟩
  · rw [hafter rfl] at h
    exact hzeros (Value.float.inj (Object.properties_put_iff.1 h).2)
  · rw [hafter rfl]
    exact hkeys

end Session

end DataBinding
