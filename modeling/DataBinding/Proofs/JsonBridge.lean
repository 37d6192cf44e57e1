import DataBinding.Proofs.JsonText
import DataBinding.Proofs.Runs

/-!
# JSON values as values of the store

`Store.ofJson` makes an object for each object of a JSON value. The store `Grows` by new objects alone, and the value
`Mirrors` the JSON value with them: it has the same shape, each object of it is one of the new ones, and no two of them
are the same. So `Store.toJson` finds its way through them (`jsonWith_of_mirrors`) and gives the JSON value back, with
the members of each object in the order of their names.
-/

namespace DataBinding

namespace Table

variable {κ α β : Type} [Ord κ] [DecidableEq κ] [Std.TransOrd κ] [Std.LawfulEqOrd κ]

omit [Std.TransOrd κ] [Std.LawfulEqOrd κ] in
theorem place_map (f : α → β) (k : κ) (a : α) (es : List (κ × α)) :
    (place k a es).map (fun e => (e.1, f e.2)) = place k (f a) (es.map fun e => (e.1, f e.2)) := by
  induction es with
  | nil => rfl
  | cons e es ih =>
    simp only [place, List.map_cons]
    split
    · rfl
    · split
      · rfl
      · rw [List.map_cons, ih]

/-- Other values for the keys may be put in before or after. -/
theorem entries_ofList_map (f : α → β) (es : List (κ × α)) :
    (ofList (es.map fun e => (e.1, f e.2))).entries = (ofList es).entries.map fun e => (e.1, f e.2) := by
  suffices h : ∀ (t : Table κ α) (u : Table κ β), u.entries = (t.entries.map fun e => (e.1, f e.2)) →
      ((es.map fun e => (e.1, f e.2)).foldl (fun t e => t.insert e.1 e.2) u).entries =
        (es.foldl (fun t e => t.insert e.1 e.2) t).entries.map fun e => (e.1, f e.2) from h ∅ ∅ rfl
  induction es with
  | nil => exact fun t u h => h
  | cons e es ih =>
    intro t u h
    refine ih (t.insert e.1 e.2) (u.insert e.1 (f e.2)) ?_
    simp only [insert, place_map, h]

/-- Entries in ascending order of their keys stay where they are. -/
theorem entries_ofList_of_ascending {es : List (κ × α)} (h : es.Pairwise fun a b => compare a.1 b.1 = .lt) :
    (ofList es).entries = es := by
  suffices hfold : ∀ t : Table κ α, (t.entries ++ es).Pairwise (fun a b => compare a.1 b.1 = .lt) →
      (es.foldl (fun t e => t.insert e.1 e.2) t).entries = t.entries ++ es from hfold ∅ h
  clear h
  induction es with
  | nil => exact fun t _ => (List.append_nil _).symm
  | cons e es ih =>
    intro t h
    have hlast : (t.insert e.1 e.2).entries = t.entries ++ [e] :=
      place_of_lt fun d hd => (List.pairwise_append.1 h).2.2 d hd e (by simp)
    rw [List.foldl_cons, ih (t.insert e.1 e.2), hlast, List.append_assoc, List.singleton_append]
    rwa [hlast, List.append_assoc, List.singleton_append]

end Table

namespace Json

/-- The integer fits in 64 bits, the float is finite. -/
def Number.Fits : Number → Prop
  | .int n => Int64.minValue.toInt ≤ n ∧ n ≤ Int64.maxValue.toInt
  | .float x => x.isFinite = true

mutual

/-- The value with the members of each object in the order of their names; of those with one name the last stays. -/
def arranged : Json → Json
  | .array items => .array (arrangedItems items)
  | .object members => .object (Table.ofList (arrangedMembers members)).entries
  | .null => .null
  | .bool b => .bool b
  | .number n => .number n
  | .string s => .string s

def arrangedItems : List Json → List Json
  | [] => []
  | j :: js => arranged j :: arrangedItems js

def arrangedMembers : List (String × Json) → List (String × Json)
  | [] => []
  | (k, j) :: ms => (k, arranged j) :: arrangedMembers ms

end

mutual

/-- The members of each object stand in the order of their names, and no two have one name. -/
def IsArranged : Json → Prop
  | .array items => ItemsArranged items
  | .object members => members.Pairwise (fun a b => compare a.1 b.1 = .lt) ∧ MembersArranged members
  | .null | .bool _ | .number _ | .string _ => True

def ItemsArranged : List Json → Prop
  | [] => True
  | j :: js => IsArranged j ∧ ItemsArranged js

def MembersArranged : List (String × Json) → Prop
  | [] => True
  | (_, j) :: ms => IsArranged j ∧ MembersArranged ms

end

mutual

theorem arranged_of_isArranged : ∀ {j : Json}, j.IsArranged → j.arranged = j
  | .array items, h => by
    simp only [IsArranged] at h
    rw [arranged, arrangedItems_of_itemsArranged h]
  | .object members, h => by
    simp only [IsArranged] at h
    rw [arranged, arrangedMembers_of_membersArranged h.2, Table.entries_ofList_of_ascending h.1]
  | .null, _ | .bool _, _ | .number _, _ | .string _, _ => by simp only [arranged]

theorem arrangedItems_of_itemsArranged : ∀ {js : List Json}, ItemsArranged js → arrangedItems js = js
  | [], _ => by rw [arrangedItems]
  | j :: js, h => by
    simp only [ItemsArranged] at h
    rw [arrangedItems, arranged_of_isArranged h.1, arrangedItems_of_itemsArranged h.2]

theorem arrangedMembers_of_membersArranged :
    ∀ {ms : List (String × Json)}, MembersArranged ms → arrangedMembers ms = ms
  | [], _ => by rw [arrangedMembers]
  | (k, j) :: ms, h => by
    simp only [MembersArranged] at h
    rw [arrangedMembers, arranged_of_isArranged h.1, arrangedMembers_of_membersArranged h.2]

end

end Json

namespace Store

open Json (Number)

variable {s s' s'' : Store} {os ps : List ObjectId}

/-! ### New objects -/

/-- The second store is the first with the objects `os` in addition, all of them new. -/
structure Grows (s s' : Store) (os : List ObjectId) : Prop where
  fresh_le : s.fresh ≤ s'.fresh
  nodup : os.Nodup
  within {o : ObjectId} : o ∈ os → s.fresh ≤ o.number ∧ o.number < s'.fresh
  objects {o : ObjectId} : o ∉ os → s'.objects.get? o = s.objects.get? o
  streams : s'.streams = s.streams
  observers : s'.observers = s.observers
  collections : s'.collections = s.collections

theorem Grows.refl (s : Store) : Grows s s [] :=
  ⟨le_rfl, .nil, fun h => absurd h (List.not_mem_nil), fun _ => rfl, rfl, rfl, rfl⟩

theorem Grows.trans (h : Grows s s' os) (h' : Grows s' s'' ps) : Grows s s'' (os ++ ps) where
  fresh_le := h.fresh_le.trans h'.fresh_le
  nodup := by
    refine List.nodup_append.2 ⟨h.nodup, h'.nodup, ?_⟩
    rintro o ho _ ho' rfl
    -- the objects of the second step are younger than all those of the first
    have := h.within ho
    have := h'.within ho'
    omega
  within ho := by
    have := h.fresh_le
    have := h'.fresh_le
    obtain ho | ho := List.mem_append.1 ho
    · have := h.within ho
      omega
    · have := h'.within ho
      omega
  objects ho := by
    rw [List.mem_append, not_or] at ho
    rw [h'.objects ho.2, h.objects ho.1]
  streams := h'.streams.trans h.streams
  observers := h'.observers.trans h.observers
  collections := h'.collections.trans h.collections

theorem grows_newObject (s : Store) (ps : Table String Value) : Grows s (s.newObject ps).1 [⟨s.fresh⟩] where
  fresh_le := Nat.le_succ _
  nodup := List.pairwise_singleton ..
  within ho := by
    rw [List.mem_singleton.1 ho]
    exact ⟨le_rfl, Nat.lt_succ_self _⟩
  objects ho := by
    rw [List.mem_singleton] at ho
    exact (Table.get?_insert ..).trans (if_neg (Ne.symm ho))
  streams := rfl
  observers := rfl
  collections := rfl

mutual

/-- In the store the value has the shape of the JSON value, with the objects `os` for those of the JSON value, one for
each. -/
inductive Mirrors (s : Store) : Json → Value → List ObjectId → Prop
  | null : Mirrors s .null .null []
  | bool (b : Bool) : Mirrors s (.bool b) (.bool b) []
  | int (n : Int64) : Mirrors s (.number (.int n.toInt)) (.int n) []
  | float (x : Float) : Mirrors s (.number (.float x)) (.float x) []
  | string (t : String) : Mirrors s (.string t) (.text t) []
  | array {js : List Json} {vs : List Value} {os : List ObjectId} : MirrorsItems s js vs os →
      Mirrors s (.array js) (.array vs) os
  | object {ms : List (String × Json)} {vs : List (String × Value)} {os : List ObjectId} {o : ObjectId} :
      MirrorsMembers s ms vs os → s.objects.get? o = some { properties := Table.ofList vs } →
      Mirrors s (.object ms) (.object o) (os ++ [o])

inductive MirrorsItems (s : Store) : List Json → List Value → List ObjectId → Prop
  | nil : MirrorsItems s [] [] []
  | cons {j : Json} {v : Value} {js : List Json} {vs : List Value} {os ps : List ObjectId} : Mirrors s j v os →
      MirrorsItems s js vs ps → MirrorsItems s (j :: js) (v :: vs) (os ++ ps)

inductive MirrorsMembers (s : Store) : List (String × Json) → List (String × Value) → List ObjectId → Prop
  | nil : MirrorsMembers s [] [] []
  | cons {k : String} {j : Json} {v : Value} {ms : List (String × Json)} {vs : List (String × Value)}
      {os ps : List ObjectId} : Mirrors s j v os → MirrorsMembers s ms vs ps →
      MirrorsMembers s ((k, j) :: ms) ((k, v) :: vs) (os ++ ps)

end

mutual

/-- What is made later is elsewhere. -/
theorem Mirrors.grows (hg : Grows s s' ps) : ∀ {j : Json} {v : Value} {os : List ObjectId}, Mirrors s j v os →
    (∀ o ∈ os, o.number < s.fresh) → Mirrors s' j v os
  | .null, _, _, .null, _ => .null
  | .bool _, _, _, .bool b, _ => .bool b
  | .number _, _, _, .int n, _ => .int n
  | .number _, _, _, .float x, _ => .float x
  | .string _, _, _, .string t, _ => .string t
  | .array _, _, _, .array h, ho => .array (h.grows hg ho)
  | .object _, _, _, .object (o := o) h hget, ho => by
    rw [List.forall_mem_append, List.forall_mem_singleton] at ho
    refine .object (h.grows hg ho.1) (hget ▸ hg.objects fun hp => ?_)
    have := (hg.within hp).1
    omega

theorem MirrorsItems.grows (hg : Grows s s' ps) : ∀ {js : List Json} {vs : List Value} {os : List ObjectId},
    MirrorsItems s js vs os → (∀ o ∈ os, o.number < s.fresh) → MirrorsItems s' js vs os
  | [], _, _, .nil, _ => .nil
  | _ :: _, _, _, .cons h h', ho => by
    rw [List.forall_mem_append] at ho
    exact .cons (h.grows hg ho.1) (h'.grows hg ho.2)

theorem MirrorsMembers.grows (hg : Grows s s' ps) :
    ∀ {ms : List (String × Json)} {vs : List (String × Value)} {os : List ObjectId}, MirrorsMembers s ms vs os →
      (∀ o ∈ os, o.number < s.fresh) → MirrorsMembers s' ms vs os
  | [], _, _, .nil, _ => .nil
  | _ :: _, _, _, .cons h h', ho => by
    rw [List.forall_mem_append] at ho
    exact .cons (h.grows hg ho.1) (h'.grows hg ho.2)

end

mutual

/-- A JSON value whose integers fit is made with new objects, one for each of its own. -/
theorem mirrors_ofJson (s : Store) : ∀ j : Json, (∀ n ∈ j.numbers, n.Fits) →
    ∃ os, Grows s (s.ofJson j).1 os ∧ Mirrors (s.ofJson j).1 j (s.ofJson j).2 os
  | .null, _ => ⟨[], .refl s, .null⟩
  | .bool b, _ => ⟨[], .refl s, .bool b⟩
  | .number (.int n), hn => by
    have hfits : Int64.minValue.toInt ≤ n ∧ n ≤ Int64.maxValue.toInt := hn (.int n) (by simp [Json.numbers])
    have hback : (Int64.ofInt n).toInt = n := by
      have hmin : Int64.minValue.toInt = -2 ^ 63 := by decide
      have hmax : Int64.maxValue.toInt = 2 ^ 63 - 1 := by decide
      exact Int64.toInt_ofInt_of_le (by omega) (by omega)
    have hmirrors : Mirrors s (.number (.int (Int64.ofInt n).toInt)) (.int (Int64.ofInt n)) [] := .int _
    refine ⟨[], .refl s, ?_⟩
    rw [hback] at hmirrors
    simp only [ofJson, hfits, and_self, if_true]
    exact hmirrors
  | .number (.float x), _ => ⟨[], .refl s, .float x⟩
  | .string t, _ => ⟨[], .refl s, .string t⟩
  | .array js, hn => by
    simp only [Json.numbers] at hn
    obtain ⟨os, hg, hm⟩ := mirrors_ofItems s js hn
    exact ⟨os, hg, .array hm⟩
  | .object ms, hn => by
    simp only [Json.numbers] at hn
    obtain ⟨os, hg, hm⟩ := mirrors_ofMembers s ms hn
    have hnew := grows_newObject (s.ofMembers ms).1 (Table.ofList (s.ofMembers ms).2)
    refine ⟨os ++ [_], hg.trans hnew, .object (hm.grows hnew fun o ho => (hg.within ho).2) ?_⟩
    exact (Table.get?_insert ..).trans (if_pos rfl)

theorem mirrors_ofItems (s : Store) : ∀ js : List Json, (∀ n ∈ Json.itemNumbers js, n.Fits) →
    ∃ os, Grows s (s.ofItems js).1 os ∧ MirrorsItems (s.ofItems js).1 js (s.ofItems js).2 os
  | [], _ => ⟨[], .refl s, .nil⟩
  | j :: js, hn => by
    simp only [Json.itemNumbers, List.forall_mem_append] at hn
    obtain ⟨os, hg, hm⟩ := mirrors_ofJson s j hn.1
    obtain ⟨ps, hg', hm'⟩ := mirrors_ofItems (s.ofJson j).1 js hn.2
    exact ⟨os ++ ps, hg.trans hg', .cons (hm.grows hg' fun o ho => (hg.within ho).2) hm'⟩

theorem mirrors_ofMembers (s : Store) : ∀ ms : List (String × Json), (∀ n ∈ Json.memberNumbers ms, n.Fits) →
    ∃ os, Grows s (s.ofMembers ms).1 os ∧ MirrorsMembers (s.ofMembers ms).1 ms (s.ofMembers ms).2 os
  | [], _ => ⟨[], .refl s, .nil⟩
  | (k, j) :: ms, hn => by
    simp only [Json.memberNumbers, List.forall_mem_append] at hn
    obtain ⟨os, hg, hm⟩ := mirrors_ofJson s j hn.1
    obtain ⟨ps, hg', hm'⟩ := mirrors_ofMembers (s.ofJson j).1 ms hn.2
    exact ⟨os ++ ps, hg.trans hg', .cons (hm.grows hg' fun o ho => (hg.within ho).2) hm'⟩

end

/-! ### The way back -/

mutual

/-- The objects of a value are known. -/
theorem Mirrors.known : ∀ {j : Json} {v : Value} {os : List ObjectId}, Mirrors s j v os →
    ∀ o ∈ os, o ∈ s.objects.keys
  | .null, _, _, .null | .bool _, _, _, .bool _ | .number _, _, _, .int _ | .number _, _, _, .float _
  | .string _, _, _, .string _ => by simp
  | .array _, _, _, .array h => h.known
  | .object _, _, _, .object h hget => by
    rw [List.forall_mem_append, List.forall_mem_singleton]
    exact ⟨h.known, Table.mem_keys.2 (by rw [hget]; rfl)⟩

theorem MirrorsItems.known : ∀ {js : List Json} {vs : List Value} {os : List ObjectId}, MirrorsItems s js vs os →
    ∀ o ∈ os, o ∈ s.objects.keys
  | [], _, _, .nil => by simp
  | _ :: _, _, _, .cons h h' => List.forall_mem_append.2 ⟨h.known, h'.known⟩

theorem MirrorsMembers.known : ∀ {ms : List (String × Json)} {vs : List (String × Value)} {os : List ObjectId},
    MirrorsMembers s ms vs os → ∀ o ∈ os, o ∈ s.objects.keys
  | [], _, _, .nil => by simp
  | _ :: _, _, _, .cons h h' => List.forall_mem_append.2 ⟨h.known, h'.known⟩

end

mutual

/-- It is enough to look as deep as there are objects in the value. -/
theorem jsonWith_of_mirrors : ∀ {j : Json} {v : Value} {os : List ObjectId} {n : Nat}, Mirrors s j v os →
    os.length ≤ n → (∀ m ∈ j.numbers, m.Fits) → jsonWith (s.objectJson n) v = j.arranged
  | .null, _, _, _, .null, _, _ | .bool _, _, _, _, .bool _, _, _ | .number _, _, _, _, .int _, _, _
  | .string _, _, _, _, .string _, _, _ => by
    simp only [jsonWith, Json.arranged, Json.int]
  | .number _, _, _, _, .float x, _, hn => by
    have hx : x.isFinite = true := hn (.float x) (by simp [Json.numbers])
    simp only [jsonWith, Json.arranged, hx, if_true]
  | .array _, _, _, _, .array h, hlen, hn => by
    simp only [Json.numbers] at hn
    rw [jsonWith, Json.arranged, jsonsWith_of_mirrors h hlen hn]
  | .object _, _, _, 0, .object h _, hlen, _ => by
    simp at hlen
  | .object _, _, _, n + 1, @Mirrors.object _ _ vs _ o h hget, hlen, hn => by
    simp only [Json.numbers] at hn
    have hobject : s.object o = { properties := Table.ofList vs } := by rw [object, hget, Option.getD_some]
    rw [jsonWith, objectJson, hobject, Json.arranged, ← Table.entries_ofList_map,
      map_of_mirrors h (by simpa using hlen) hn]

theorem jsonsWith_of_mirrors : ∀ {js : List Json} {vs : List Value} {os : List ObjectId} {n : Nat},
    MirrorsItems s js vs os → os.length ≤ n → (∀ m ∈ Json.itemNumbers js, m.Fits) →
    jsonsWith (s.objectJson n) vs = Json.arrangedItems js
  | [], _, _, _, .nil, _, _ => by rw [jsonsWith, Json.arrangedItems]
  | _ :: _, _, _, _, .cons h h', hlen, hn => by
    simp only [Json.itemNumbers, List.forall_mem_append] at hn
    rw [List.length_append] at hlen
    rw [jsonsWith, Json.arrangedItems, jsonWith_of_mirrors h (by omega) hn.1, jsonsWith_of_mirrors h' (by omega) hn.2]

theorem map_of_mirrors : ∀ {ms : List (String × Json)} {vs : List (String × Value)} {os : List ObjectId} {n : Nat},
    MirrorsMembers s ms vs os → os.length ≤ n → (∀ m ∈ Json.memberNumbers ms, m.Fits) →
    vs.map (fun e => (e.1, jsonWith (s.objectJson n) e.2)) = Json.arrangedMembers ms
  | [], _, _, _, .nil, _, _ => by rw [List.map_nil, Json.arrangedMembers]
  | _ :: _, _, _, _, .cons h h', hlen, hn => by
    simp only [Json.memberNumbers, List.forall_mem_append] at hn
    rw [List.length_append] at hlen
    rw [List.map_cons, Json.arrangedMembers, jsonWith_of_mirrors h (by omega) hn.1, map_of_mirrors h' (by omega) hn.2]

end

/-- No two objects of the value are the same, so there are not more of them than the store has. -/
theorem toJson_of_mirrors {j : Json} {v : Value} (h : Mirrors s j v os) (hos : os.Nodup)
    (hn : ∀ n ∈ j.numbers, n.Fits) : s.toJson v = j.arranged := by
  have hlen : os.length ≤ s.objects.keys.length := hos.length_le_of_subset h.known
  have hsize : s.objects.keys.length = s.objects.size := List.length_map ..
  exact jsonWith_of_mirrors h (by omega) hn

end Store

namespace Session

/-- A JSON value whose integers fit in 64 bits and whose floats are finite gets through the bridge, whatever has
happened before: it is given back with the members of each object in order, so as it is if they are. Each of its objects
has become an object of its own that was not there before, and all objects, streams, observers and collections that were
there are as they were. -/
theorem toJson_ofJson (as : List Act) {j : Json} (hj : ∀ n ∈ j.numbers, n.Fits) :
    let s := (initial.play as).store
    let s' := (s.ofJson j).1
    let v := (s.ofJson j).2
    (s'.toJson v = j.arranged ∧ (j.IsArranged → s'.toJson v = j)) ∧
      ∃ os, s'.Mirrors j v os ∧ os.Nodup ∧ (∀ o ∈ os, s.objects.get? o = none) ∧
        (∀ o ∉ os, s'.objects.get? o = s.objects.get? o) ∧ s'.streams = s.streams ∧ s'.observers = s.observers ∧
        s'.collections = s.collections := by
  intro s s' v
  obtain ⟨os, hg, hm⟩ := s.mirrors_ofJson j hj
  have hback : s'.toJson v = j.arranged := Store.toJson_of_mirrors hm hg.nodup hj
  refine ⟨⟨hback, fun h => hback.trans (Json.arranged_of_isArranged h)⟩, os, hm, hg.nodup, ?_,
    fun o ho => hg.objects ho, hg.streams, hg.observers, hg.collections⟩
  intro o ho
  by_contra hknown
  have hold : o.number < s.fresh := (sound_initial.play as).old (x := .object o) (Option.isSome_iff_ne_none.2 hknown)
  have := (hg.within ho).1
  omega

/-- An object with a float, and with a text and another object in an array, next to an object that was there before. -/
theorem toJson_ofJson_nested :
    let s := (initial.play [.command (.makeObject "user" [])]).store
    let j := Json.object [("name", .string "Ann"), ("score", .number (.float 1.5)),
      ("tags", .array [.string "a", .object [("n", .int 1)]])]
    (∀ n ∈ j.numbers, n.Fits) ∧ j.IsArranged ∧ (s.ofJson j).1.toJson (s.ofJson j).2 = j := by
  intro s j
  have hn : ∀ n ∈ j.numbers, n.Fits := by
    have hnumbers : j.numbers = [.float 1.5, .int 1] := rfl
    rw [hnumbers, List.forall_mem_cons, List.forall_mem_singleton]
    exact ⟨show (1.5 : Float).isFinite = true by decide, show Int64.minValue.toInt ≤ 1 ∧ 1 ≤ Int64.maxValue.toInt by decide⟩
  have hordered : (["name", "score", "tags"].Pairwise fun a b => compare a b = .lt) := by decide
  have harranged : j.IsArranged := by
    simp only [j, Json.IsArranged, Json.MembersArranged, Json.ItemsArranged, Json.int, and_true, true_and]
    exact ⟨List.Pairwise.of_map (·.1) (fun _ _ h => h) hordered, List.pairwise_singleton ..⟩
  exact ⟨hn, harranged, (toJson_ofJson [.command (.makeObject "user" [])] hn).1.2 harranged⟩

end Session

end DataBinding
