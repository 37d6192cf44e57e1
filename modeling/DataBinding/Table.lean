/-!
# Finite maps in key order

A `Table` holds at most one value for each key: its entries stand in the order of the keys, each key once. Its view is
`get?`; `get?_insert`, `get?_modify`, `get?_erase` and `get?_filter` say what the updates do to the view, and
`mem_entries` says that the entries are what the view shows.
-/

namespace DataBinding

/-- A finite map, kept as a list of entries with ascending keys. -/
structure Table (κ : Type) (α : Type) [Ord κ] where
  entries : List (κ × α)
  ascending : entries.Pairwise fun a b => compare a.1 b.1 = .lt

namespace Table

variable {κ α β : Type} [Ord κ]

instance : EmptyCollection (Table κ α) := ⟨⟨[], .nil⟩⟩

instance : Inhabited (Table κ α) := ⟨∅⟩

def keys (t : Table κ α) : List κ := t.entries.map (·.1)

def values (t : Table κ α) : List α := t.entries.map (·.2)

def size (t : Table κ α) : Nat := t.entries.length

def isEmpty (t : Table κ α) : Bool := t.entries.isEmpty

/-- The entries whose key and value pass the test. -/
def filter (p : κ → α → Bool) (t : Table κ α) : Table κ α :=
  ⟨t.entries.filter fun e => p e.1 e.2, t.ascending.filter _⟩

/-- Other values for the keys that `f` has one for. -/
def filterMap (f : κ → α → Option β) (t : Table κ α) : Table κ β where
  entries := t.entries.filterMap fun e => (f e.1 e.2).map fun b => (e.1, b)
  ascending := by
    rw [List.pairwise_filterMap]
    refine t.ascending.imp ?_
    rintro a b h _ ha _ hb
    obtain ⟨_, _, rfl⟩ := Option.map_eq_some_iff.1 ha
    obtain ⟨_, _, rfl⟩ := Option.map_eq_some_iff.1 hb
    exact h

def erase [DecidableEq κ] (t : Table κ α) (k : κ) : Table κ α := t.filter fun l _ => l ≠ k

variable [DecidableEq κ]

/-- The value of the first entry with key `k`. -/
def lookup (k : κ) : List (κ × α) → Option α
  | [] => none
  | e :: es => if e.1 = k then some e.2 else lookup k es

def get? (t : Table κ α) (k : κ) : Option α := lookup k t.entries

def contains (t : Table κ α) (k : κ) : Bool := (t.get? k).isSome

/-- Replaces the entry with key `k`, or puts a new one before the first greater key. -/
def place (k : κ) (a : α) : List (κ × α) → List (κ × α)
  | [] => [(k, a)]
  | e :: es =>
    if e.1 = k then (k, a) :: es
    else if (compare k e.1).isLT then (k, a) :: e :: es
    else e :: place k a es

theorem mem_place {k : κ} {a : α} {e : κ × α} {es : List (κ × α)} (h : e ∈ place k a es) : e = (k, a) ∨ e ∈ es := by
  induction es with
  | nil => simpa [place] using h
  | cons d es ih =>
    unfold place at h
    split at h
    · rcases List.mem_cons.1 h with h | h
      · exact .inl h
      · exact .inr (List.mem_cons_of_mem _ h)
    · split at h
      · exact List.mem_cons.1 h
      · rcases List.mem_cons.1 h with rfl | h
        · exact .inr (List.mem_cons_self ..)
        · exact (ih h).imp_right (List.mem_cons_of_mem _)

section

variable [Std.TransOrd κ] [Std.LawfulEqOrd κ]

theorem pairwise_place (k : κ) (a : α) {es : List (κ × α)} (h : es.Pairwise fun a b => compare a.1 b.1 = .lt) :
    (place k a es).Pairwise fun a b => compare a.1 b.1 = .lt := by
  induction es with
  | nil => exact List.pairwise_singleton ..
  | cons e es ih =>
    rw [List.pairwise_cons] at h
    unfold place
    split
    next he => exact List.pairwise_cons.2 ⟨fun b hb => he ▸ h.1 b hb, h.2⟩
    next he =>
      split
      next hlt =>
        have hlt : compare k e.1 = .lt := Ordering.isLT_iff_eq_lt.1 hlt
        refine List.pairwise_cons.2 ⟨fun b hb => ?_, List.pairwise_cons.2 h⟩
        rcases List.mem_cons.1 hb with rfl | hb
        · exact hlt
        · exact Std.TransCmp.lt_trans hlt (h.1 b hb)
      next hlt =>
        refine List.pairwise_cons.2 ⟨fun b hb => ?_, ih h.2⟩
        rcases mem_place hb with rfl | hb
        · have hne : compare k e.1 ≠ .eq := fun heq => he (Std.LawfulEqCmp.eq_of_compare heq).symm
          have hgt : compare k e.1 = .gt := by
            cases hc : compare k e.1 <;> simp_all
          exact Std.OrientedCmp.lt_of_gt hgt
        · exact h.1 b hb

def insert (t : Table κ α) (k : κ) (a : α) : Table κ α := ⟨place k a t.entries, pairwise_place k a t.ascending⟩

omit [Std.TransOrd κ] [Std.LawfulEqOrd κ] in
theorem place_place (k : κ) (a b : α) (es : List (κ × α)) : place k b (place k a es) = place k b es := by
  induction es with
  | nil => simp [place]
  | cons e es ih =>
    by_cases he : e.1 = k
    · simp [place, he]
    · by_cases hlt : (compare k e.1).isLT
      · simp [place, he, hlt]
      · simp [place, he, hlt, ih]

theorem insert_insert (t : Table κ α) (k : κ) (a b : α) : (t.insert k a).insert k b = t.insert k b := by
  simp only [insert, place_place]

/-- Applies `f` to the value of `k`, if there is one. -/
def modify (t : Table κ α) (k : κ) (f : α → α) : Table κ α :=
  match t.get? k with
  | some a => t.insert k (f a)
  | none => t

/-- Inserts the entries one after another, so that of two with the same key the last one stays. -/
def ofList (es : List (κ × α)) : Table κ α := es.foldl (fun t e => t.insert e.1 e.2) ∅

end

/-! ### The view -/

@[simp] theorem get?_empty (k : κ) : (∅ : Table κ α).get? k = none := rfl

omit [Ord κ] in
theorem mem_of_lookup {k : κ} {a : α} {es : List (κ × α)} (h : lookup k es = some a) : (k, a) ∈ es := by
  induction es with
  | nil => simp [lookup] at h
  | cons e es ih =>
    unfold lookup at h
    split at h
    next he =>
      obtain rfl : e.2 = a := by simpa using h
      subst he
      exact List.mem_cons_self ..
    · exact List.mem_cons_of_mem _ (ih h)

theorem mem_entries_of_get? {t : Table κ α} {k : κ} {a : α} (h : t.get? k = some a) : (k, a) ∈ t.entries :=
  mem_of_lookup h

theorem mem_values_of_get? {t : Table κ α} {k : κ} {a : α} (h : t.get? k = some a) : a ∈ t.values :=
  List.mem_map.2 ⟨_, mem_entries_of_get? h, rfl⟩

section

variable [Std.LawfulEqOrd κ]

theorem lookup_of_mem {k : κ} {a : α} {es : List (κ × α)} (hs : es.Pairwise fun a b => compare a.1 b.1 = .lt)
    (h : (k, a) ∈ es) : lookup k es = some a := by
  induction es with
  | nil => simp at h
  | cons e es ih =>
    rw [List.pairwise_cons] at hs
    unfold lookup
    rcases List.mem_cons.1 h with rfl | h
    · simp
    · have hlt := hs.1 _ h
      split
      next he =>
        rw [he, Std.ReflOrd.compare_self] at hlt
        simp at hlt
      · exact ih hs.2 h

theorem mem_entries {t : Table κ α} {k : κ} {a : α} : (k, a) ∈ t.entries ↔ t.get? k = some a :=
  ⟨lookup_of_mem t.ascending, mem_entries_of_get?⟩

theorem mem_keys {t : Table κ α} {k : κ} : k ∈ t.keys ↔ (t.get? k).isSome := by
  constructor
  · intro h
    obtain ⟨⟨l, a⟩, he, rfl⟩ := List.mem_map.1 h
    simp [mem_entries.1 he]
  · intro h
    obtain ⟨a, ha⟩ := Option.isSome_iff_exists.1 h
    exact List.mem_map.2 ⟨_, mem_entries.2 ha, rfl⟩

theorem mem_values {t : Table κ α} {a : α} : a ∈ t.values ↔ ∃ k, t.get? k = some a := by
  constructor
  · intro h
    obtain ⟨⟨k, b⟩, he, rfl⟩ := List.mem_map.1 h
    exact ⟨k, mem_entries.1 he⟩
  · rintro ⟨k, h⟩
    exact mem_values_of_get? h

/-- Inserting what is there changes nothing. -/
theorem insert_of_get? [Std.TransOrd κ] {t : Table κ α} {k : κ} {a : α} (h : t.get? k = some a) :
    t.insert k a = t := by
  obtain ⟨es, hs⟩ := t
  suffices hp : place k a es = es by simp only [insert, hp]
  change lookup k es = some a at h
  induction es with
  | nil => cases h
  | cons e es ih =>
    rw [List.pairwise_cons] at hs
    unfold lookup at h
    unfold place
    split at h
    next he =>
      obtain rfl : e.2 = a := by simpa using h
      simp [← he]
    next he =>
      have hlt := hs.1 _ (mem_of_lookup h)
      have hnot : ¬(compare k e.1).isLT := by
        rw [Std.OrientedCmp.gt_of_lt hlt]
        simp
      simp only [he, hnot, ih hs.2 h, if_false, Bool.false_eq_true]

omit [Std.LawfulEqOrd κ] in
theorem lookup_place (k l : κ) (a : α) (es : List (κ × α)) :
    lookup l (place k a es) = if k = l then some a else lookup l es := by
  induction es with
  | nil => simp [place, lookup]
  | cons e es ih =>
    unfold place
    split
    · by_cases h : k = l <;> simp_all [lookup]
    · split
      · simp [lookup]
      · by_cases h : k = l <;> simp_all [lookup]

theorem get?_filter (p : κ → α → Bool) (t : Table κ α) (k : κ) : (t.filter p).get? k = (t.get? k).filter (p k) := by
  apply Option.ext
  intro a
  rw [← mem_entries, Option.mem_def.symm, Option.mem_filter_iff]
  simp [filter, mem_entries]

theorem get?_erase (t : Table κ α) (k l : κ) :
    (t.erase k).get? l = if k = l then none else t.get? l := by
  unfold erase
  rw [get?_filter]
  by_cases h : k = l
  · subst h
    cases t.get? k <;> simp [Option.filter]
  · cases t.get? l <;> simp [Option.filter, h, Ne.symm h]

variable [Std.TransOrd κ]

theorem get?_insert (t : Table κ α) (k l : κ) (a : α) :
    (t.insert k a).get? l = if k = l then some a else t.get? l :=
  lookup_place k l a t.entries

omit [Std.LawfulEqOrd κ] in
theorem place_of_lt {k : κ} {a : α} {es : List (κ × α)} (h : ∀ e ∈ es, compare e.1 k = .lt) :
    place k a es = es ++ [(k, a)] := by
  induction es with
  | nil => rfl
  | cons e es ih =>
    have he : compare e.1 k = .lt := h e (by simp)
    have hgt : compare k e.1 = .gt := Std.OrientedCmp.gt_of_lt he
    have hne : e.1 ≠ k := by
      rintro rfl
      rw [Std.ReflOrd.compare_self] at he
      cases he
    simp [place, hne, hgt, ih fun d hd => h d (by simp [hd])]

/-- A key that is greater than all others comes last. -/
theorem keys_insert_of_lt {t : Table κ α} {k : κ} (a : α) (h : ∀ l ∈ t.keys, compare l k = .lt) :
    (t.insert k a).keys = t.keys ++ [k] := by
  have hp : place k a t.entries = t.entries ++ [(k, a)] :=
    place_of_lt fun e he => h e.1 (List.mem_map.2 ⟨e, he, rfl⟩)
  simp [keys, insert, hp]

theorem get?_modify (t : Table κ α) (k l : κ) (f : α → α) :
    (t.modify k f).get? l = if k = l then (t.get? k).map f else t.get? l := by
  unfold modify
  by_cases h : k = l
  · subst h
    cases hk : t.get? k with
    | none => simp [hk]
    | some a => simp [get?_insert]
  · cases t.get? k with
    | none => simp [h]
    | some a => simp [get?_insert, h]

end

end Table

end DataBinding
