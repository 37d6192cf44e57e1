import DataBinding.Proofs.Opening

/-!
# The size of a registry

Streams and observers go without telling the registry, which keeps its entries of them until it sweeps. So a history of
a registry is a list of uses, each with the streams that were alive and the store that there was at its moment
(`Registry.Use`), and between two moments anything may have happened. An entry is added where there is room for it, or
else after a sweep, which leaves live entries only; then all entries are live right after (`size_observerFor`). So no
registry ever has more entries than its threshold allows, or than were live at one time (`size_play`). A sweep takes no
live entry away (`get?_prune_of_isLiveEntry`, `get?_observerFor_of_isLiveEntry`).
-/

namespace DataBinding

namespace Table

variable {κ α : Type} [Ord κ]

theorem size_filter_le (t : Table κ α) (p : κ → α → Bool) : (t.filter p).size ≤ t.size := List.length_filter_le ..

variable [DecidableEq κ]

theorem filter_eq_self [Std.LawfulEqOrd κ] {t : Table κ α} {p : κ → α → Bool}
    (h : ∀ k a, t.get? k = some a → p k a = true) : t.filter p = t := by
  obtain ⟨es, hs⟩ := t
  have hes : es.filter (fun e => p e.1 e.2) = es :=
    List.filter_eq_self.2 fun e he => h e.1 e.2 (lookup_of_mem hs he)
  simp only [filter, hes]

theorem length_place_le (k : κ) (a : α) (es : List (κ × α)) : (place k a es).length ≤ es.length + 1 := by
  induction es with
  | nil => simp [place]
  | cons e es ih =>
    unfold place
    split
    · simp
    · split
      · simp
      · simpa using ih

theorem size_insert_le [Std.TransOrd κ] [Std.LawfulEqOrd κ] (t : Table κ α) (k : κ) (a : α) :
    (t.insert k a).size ≤ t.size + 1 :=
  length_place_le k a t.entries

end Table

namespace Registry

variable {alive : StreamId → Bool} {s : Store} {r : Registry} {i j : StreamId} {o : ObserverId}

/-! ### What a sweep leaves -/

theorem get?_prune_of_isLiveEntry (ho : r.entries.get? j = some o) (hlive : isLiveEntry alive s j o = true) :
    (r.prune alive s).entries.get? j = some o := by
  simp only [prune, liveEntries, Table.get?_filter, ho, Option.filter_some_pos hlive]

theorem isLiveEntry_of_get?_prune (ho : (r.prune alive s).entries.get? j = some o) :
    isLiveEntry alive s j o = true := by
  simp only [prune, liveEntries, Table.get?_filter] at ho
  exact (Option.filter_eq_some_iff.1 ho).2

/-- What is live stays where it is when an observer is handed out, and so does the live entry of that very stream. -/
theorem get?_observerFor_of_isLiveEntry (ho : r.entries.get? j = some o) (hlive : isLiveEntry alive s j o = true)
    (i : StreamId) : (r.observerFor alive s i).2.1.entries.get? j = some o := by
  obtain ⟨hlive, hj⟩ := Bool.and_eq_true_iff.1 hlive
  exact (get?_eq_some.1 (get?_observerFor_of_get? (get?_eq_some.2 ⟨ho, hlive⟩) hj)).1

/-! ### How much one use adds -/

theorem threshold_observerFor (alive : StreamId → Bool) (s : Store) (r : Registry) (i : StreamId) :
    (r.observerFor alive s i).2.1.threshold = r.threshold := by
  cases h : r.get? s i with
  | some o => rw [observerFor_of_get? h]
  | none =>
    rw [observerFor_of_none h]
    simp only [swept]
    split <;> rfl

/-- A registry that swept has live entries only, and so it has when the observer is entered that was opened. -/
theorem size_enter_prune (hi : alive i = true) (ho : s.isLive o = true) {q : Registry}
    (hq : q.entries = (r.prune alive s).entries.insert i o) : q.size alive s = q.entries.size := by
  have hall : q.entries.filter (isLiveEntry alive s) = q.entries := by
    refine Table.filter_eq_self fun k p hp => ?_
    rw [hq, Table.get?_insert] at hp
    split at hp
    next hik =>
      subst hik
      obtain rfl := Option.some.inj hp
      exact Bool.and_eq_true_iff.2 ⟨ho, hi⟩
    · exact isLiveEntry_of_get?_prune hp
  exact congrArg Table.size hall

/-- Being asked for the observer of a stream that is alive, a registry stays as large as it was, or no larger than its
threshold, or all its entries are live right after. -/
theorem size_observerFor (hi : alive i = true) :
    let q := (r.observerFor alive s i).2.1
    q.entries.size ≤ r.entries.size ∨ q.entries.size ≤ max r.threshold 1 ∨
      q.size alive (r.observerFor alive s i).1 = q.entries.size := by
  cases h : r.get? s i with
  | some o =>
    rw [observerFor_of_get? h]
    exact .inl (Nat.le_refl _)
  | none =>
    rw [observerFor_of_none h]
    refine .inr ?_
    unfold swept
    dsimp only
    split
    · exact .inr (size_enter_prune hi (by simp [Store.isLive_openObserver]) rfl)
    next hfull =>
      -- there was room for one more
      have hroom : r.entries.size < max r.threshold 1 := by
        simp only [isFull, decide_eq_true_eq] at hfull
        omega
      exact .inl (Nat.le_trans (Table.size_insert_le ..) hroom)

/-! ### Histories -/

/-- What is asked of a registry, with the streams that are alive then and the store that there is. -/
inductive Use
  | observerFor (alive : StreamId → Bool) (s : Store) (i : StreamId)
  | get (s : Store) (i : StreamId)
  | prune (alive : StreamId → Bool) (s : Store)
  | clear

/-- Whoever asks for the observer of a stream has the stream in hand. -/
def Use.IsProper : Use → Prop
  | observerFor alive _ i => alive i = true
  | get .. | prune .. | clear => True

def use (r : Registry) : Use → Registry
  | .observerFor alive s i => (r.observerFor alive s i).2.1
  | .get .. => r
  | .prune alive s => r.prune alive s
  | .clear => { r with entries := ∅ }

/-- How many entries are live right after an observer was handed out. -/
def seen (r : Registry) : Use → Nat
  | .observerFor alive s i => (r.observerFor alive s i).2.1.size alive (r.observerFor alive s i).1
  | .get .. | .prune .. | .clear => 0

/-- What a history makes of a registry. -/
def play (r : Registry) (us : List Use) : Registry := us.foldl use r

/-- The largest number of entries that were live at one time, right after an observer was handed out. -/
def peak (r : Registry) : List Use → Nat
  | [] => 0
  | u :: us => max (r.seen u) ((r.use u).peak us)

theorem play_append (r : Registry) (us vs : List Use) : r.play (us ++ vs) = (r.play us).play vs := List.foldl_append

theorem threshold_use (r : Registry) (u : Use) : (r.use u).threshold = r.threshold := by
  cases u with
  | observerFor alive s i => exact threshold_observerFor alive s r i
  | get | prune | clear => rfl

theorem size_use {u : Use} (h : u.IsProper) :
    (r.use u).entries.size ≤ max (max r.entries.size (max r.threshold 1)) (r.seen u) := by
  cases u with
  | observerFor alive s i =>
    have hsize := size_observerFor (r := r) (s := s) h
    dsimp only [use, seen] at hsize ⊢
    omega
  | get =>
    dsimp only [use]
    omega
  | prune alive s =>
    have hless : (r.prune alive s).entries.size ≤ r.entries.size := Table.size_filter_le ..
    dsimp only [use]
    omega
  | clear => exact Nat.zero_le _

/-- However a registry is used, it has no more entries than it had, than its threshold allows, or than were live at one
time. -/
theorem size_play (r : Registry) {us : List Use} (h : ∀ u ∈ us, u.IsProper) :
    (r.play us).entries.size ≤ max (max r.entries.size (max r.threshold 1)) (r.peak us) := by
  induction us generalizing r with
  | nil =>
    dsimp only [play, List.foldl_nil]
    omega
  | cons u us ih =>
    have hstep := size_use (r := r) (h u (by simp))
    have hrest := ih (r.use u) fun v hv => h v (by simp [hv])
    rw [threshold_use] at hrest
    simp only [play, List.foldl_cons, peak] at hrest ⊢
    omega

theorem size_play_of_new (n : Nat) {us : List Use} (h : ∀ u ∈ us, u.IsProper) :
    (({ threshold := n } : Registry).play us).entries.size ≤
      max (max n 1) (({ threshold := n } : Registry).peak us) := by
  have hsize : _ ≤ max (max 0 (max n 1)) _ := size_play { threshold := n } h
  rwa [Nat.zero_max] at hsize

end Registry

end DataBinding
