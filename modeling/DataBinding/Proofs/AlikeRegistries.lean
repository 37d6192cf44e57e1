import DataBinding.Proofs.Opening

/-!
# Registries that answer alike

When a registry sweeps decides which dead entries it still has, and nothing else. Two registries are `Alike` if they
have opened as many observers, and have the same live observer for each stream that is in hand. They stay alike
when both are asked for an observer (`Alike.observerFor`), when either sweeps (`Alike.prune_left`) and when the store
goes on (`Alike.later`), for dead entries never come to life again. Their live entries are the same
(`Alike.liveEntries_eq`).
-/

namespace DataBinding

/-! ### Tables with the same view -/

namespace Table

variable {κ α : Type} [Ord κ] [DecidableEq κ] [Std.TransOrd κ] [Std.LawfulEqOrd κ]

/-- Two tables with the same view are the same table. -/
theorem ext_get? {t t' : Table κ α} (h : ∀ k, t.get? k = t'.get? k) : t = t' := by
  have hnot : ∀ {a b : κ × α}, compare a.1 b.1 = .lt → a ≠ b := by
    rintro a b hab rfl
    simp at hab
  have hmem : ∀ e, e ∈ t.entries ↔ e ∈ t'.entries := by
    rintro ⟨k, a⟩
    rw [mem_entries, mem_entries, h]
  have hperm : t.entries.Perm t'.entries :=
    (List.perm_ext_iff_of_nodup (t.ascending.imp hnot) (t'.ascending.imp hnot)).2 hmem
  have hentries : t.entries = t'.entries := by
    refine hperm.eq_of_pairwise (fun a b _ _ hab hba => ?_) t.ascending t'.ascending
    have hself := Std.TransCmp.lt_trans hab hba
    simp at hself
  cases t
  cases t'
  simpa using hentries

end Table

namespace Registry

variable {H H' : StreamId → Prop} {alive alive' : StreamId → Bool} {s s' : Store} {r r' q : Registry} {i : StreamId}

/-- The registries have the same live observers of the streams in hand. What either has entered is older than
anything that comes next. -/
structure Alike (H : StreamId → Prop) (s : Store) (r r' : Registry) : Prop where
  opened : r'.opened = r.opened
  get? {i : StreamId} : H i → r'.get? s i = r.get? s i
  old {i : StreamId} {o : ObserverId} :
    r.entries.get? i = some o ∨ r'.entries.get? i = some o → i.number < s.fresh ∧ o.number < s.fresh

theorem Alike.symm (h : r.Alike H s r') : r'.Alike H s r where
  opened := h.opened.symm
  get? hi := (h.get? hi).symm
  old he := h.old he.symm

/-- Registries with the same entries are alike, if these are older than anything that comes next. -/
theorem alike_of_entries (ho : r'.opened = r.opened) (he : r'.entries = r.entries)
    (hold : ∀ i o, r.entries.get? i = some o → i.number < s.fresh ∧ o.number < s.fresh) : r.Alike H s r' where
  opened := ho
  get? _ := by unfold Registry.get?; rw [he]
  old ho := by
    rw [he, or_self] at ho
    exact hold _ _ ho

/-- A registry may be exchanged for one that has forgotten no more than entries of streams that are out of hand or of
observers that are gone. -/
theorem Alike.of_forgets (h : r.Alike H s r') (ho : q.opened = r.opened) (hq : ∀ i, H i → q.get? s i = r.get? s i)
    (he : ∀ i o, q.entries.get? i = some o → r.entries.get? i = some o) : q.Alike H s r' where
  opened := h.opened.trans ho.symm
  get? hi := (h.get? hi).trans (hq _ hi).symm
  old := fun hold => h.old (hold.imp_left (he _ _))

theorem get?_eq_none_of_old (h : ∀ o, r.entries.get? i = some o → i.number < s.fresh) (hi : s.fresh ≤ i.number)
    (s' : Store) : r.get? s' i = none := by
  cases he : r.entries.get? i with
  | none => simp [Registry.get?, he]
  | some o => exact absurd (h o he) (Nat.not_lt.2 hi)

/-- What a registry has later on, if no observer came to life that it has entered. -/
theorem get?_later (h : ∀ o, r.entries.get? i = some o → s'.isLive o = true → s.isLive o = true) :
    r.get? s' i = (r.get? s i).filter fun o => s'.isLive o := by
  unfold Registry.get?
  cases he : r.entries.get? i with
  | none => rfl
  | some o =>
    have ho := h o he
    by_cases hlive' : s'.isLive o = true
    · simp [Option.filter, hlive', ho hlive']
    · by_cases hlive : s.isLive o = true <;> simp [Option.filter, hlive, hlive']

/-- Registries stay alike in a later store, when no more of the older streams are in hand and no more of the older
observers are live. -/
theorem Alike.later (h : r.Alike H s r') (hf : s.fresh ≤ s'.fresh)
    (hlive : ∀ o : ObserverId, o.number < s.fresh → s'.isLive o = true → s.isLive o = true)
    (hH : ∀ i : StreamId, i.number < s.fresh → H' i → H i) : r.Alike H' s' r' where
  opened := h.opened
  get? {i} hi := by
    by_cases hold : i.number < s.fresh
    · rw [get?_later fun o he => hlive o (h.old (.inl he)).2, get?_later fun o he => hlive o (h.old (.inr he)).2,
        h.get? (hH i hold hi)]
    · have hnew : s.fresh ≤ i.number := Nat.not_lt.1 hold
      rw [get?_eq_none_of_old (fun o he => (h.old (.inl he)).1) hnew,
        get?_eq_none_of_old (fun o he => (h.old (.inr he)).1) hnew]
  old he := (h.old he).imp (Nat.lt_of_lt_of_le · hf) (Nat.lt_of_lt_of_le · hf)

/-! ### Sweeping -/

theorem get?_prune (hi : alive i = true) : (r.prune alive s).get? s i = r.get? s i := by
  unfold Registry.get? prune liveEntries isLiveEntry
  rw [Table.get?_filter]
  cases r.entries.get? i with
  | none => rfl
  | some o => cases hlive : s.isLive o <;> simp [Option.filter, hlive, hi]

theorem entries_prune {o : ObserverId} (h : (r.prune alive s).entries.get? i = some o) :
    r.entries.get? i = some o := by
  simp only [prune, liveEntries, Table.get?_filter] at h
  exact (Option.filter_eq_some_iff.1 h).1

/-- A registry that sweeps goes on to answer as before. -/
theorem Alike.prune_left (h : r.Alike H s r') (ha : ∀ j, H j → alive j = true) : (r.prune alive s).Alike H s r' :=
  h.of_forgets rfl (fun _ hi => get?_prune (ha _ hi)) fun _ _ => entries_prune

theorem Alike.prune (h : r.Alike H s r') (ha : ∀ j, H j → alive j = true) :
    (r.prune alive s).Alike H s (r'.prune alive s) :=
  ((h.prune_left ha).symm.prune_left ha).symm

/-- Both count an observer that was opened, and sweep if they are full. -/
theorem Alike.swept (h : r.Alike H s r') (ha : ∀ j, H j → alive j = true) (ha' : ∀ j, H j → alive' j = true) :
    (r.swept alive s).Alike H s (r'.swept alive' s) := by
  have hsweeps : ∀ {alive : StreamId → Bool} {p p' : Registry}, (∀ j, H j → alive j = true) → p.Alike H s p' →
      (if p.isFull then p.prune alive s else p).Alike H s p' := by
    intro alive p p' ha hp
    split
    · exact hp.prune_left ha
    · exact hp
  have hcounted : { r with opened := r.opened + 1 }.Alike H s { r' with opened := r'.opened + 1 } :=
    ⟨congrArg (· + 1) h.opened, h.get?, h.old⟩
  exact (hsweeps ha' (hsweeps ha hcounted).symm).symm

/-! ### Being asked for an observer -/

theorem get?_enter (r : Registry) (s : Store) (i j : StreamId) (o : ObserverId) :
    { r with entries := r.entries.insert i o }.get? s j =
      if i = j then (some o).filter fun o => s.isLive o else r.get? s j := by
  unfold Registry.get?
  rw [Table.get?_insert]
  split <;> rfl

/-- Both enter the observer. -/
theorem Alike.enter (h : r.Alike H s r') {o : ObserverId} (hi : i.number < s.fresh) (ho : o.number < s.fresh) :
    { r with entries := r.entries.insert i o }.Alike H s { r' with entries := r'.entries.insert i o } where
  opened := h.opened
  get? {j} hj := by rw [get?_enter, get?_enter, h.get? hj]
  old {j p} he := by
    simp only [Table.get?_insert] at he
    by_cases hij : i = j
    · subst hij
      obtain rfl : o = p := by simpa using he
      exact ⟨hi, ho⟩
    · simp only [if_neg hij] at he
      exact h.old he

/-- Registries that are alike hand out the same observer of a stream in hand, open it together, and stay alike. -/
theorem Alike.observerFor (h : r.Alike H s r') (ha : ∀ j, H j → alive j = true) (ha' : ∀ j, H j → alive' j = true)
    (hi : H i) (hold : i.number < s.fresh) :
    (r'.observerFor alive' s i).1 = (r.observerFor alive s i).1 ∧
      (r'.observerFor alive' s i).2.2 = (r.observerFor alive s i).2.2 ∧
      (r.observerFor alive s i).2.1.Alike H (r.observerFor alive s i).1 (r'.observerFor alive' s i).2.1 := by
  cases hr : r.get? s i with
  | some o =>
    rw [observerFor_of_get? hr, observerFor_of_get? ((h.get? hi).trans hr)]
    exact ⟨rfl, rfl, h⟩
  | none =>
    rw [observerFor_of_none hr, observerFor_of_none ((h.get? hi).trans hr)]
    refine ⟨rfl, rfl, ?_⟩
    have hfresh := Store.fresh_openObserver s i
    have hlater : r.Alike H (s.openObserver i).1 r' := by
      refine h.later (by omega) (fun o ho hlive => ?_) fun _ _ => id
      rw [Store.isLive_openObserver, Bool.or_eq_true, beq_iff_eq] at hlive
      refine hlive.resolve_left ?_
      rintro rfl
      exact absurd ho (Nat.lt_irrefl _)
    refine (hlater.swept ha ha').enter ?_ ?_
    · omega
    · show s.fresh < _
      omega

/-! ### What is live -/

/-- The live entries of registries that are alike for all streams alive are the same. -/
theorem Alike.liveEntries_eq (h : r.Alike (fun i => alive i = true) s r') :
    r'.liveEntries alive s = r.liveEntries alive s := by
  have hview : ∀ (p : Registry) j, (p.liveEntries alive s).get? j = if alive j then p.get? s j else none := by
    intro p j
    unfold liveEntries isLiveEntry Registry.get?
    rw [Table.get?_filter]
    cases halive : alive j with
    | true => simp
    | false => cases p.entries.get? j <;> simp [Option.filter]
  apply Table.ext_get?
  intro j
  rw [hview, hview]
  by_cases hj : alive j = true
  · rw [if_pos hj, if_pos hj, h.get? hj]
  · rw [if_neg hj, if_neg hj]

theorem Alike.size_eq (h : r.Alike (fun i => alive i = true) s r') : r'.size alive s = r.size alive s := by
  unfold size
  rw [h.liveEntries_eq]

end Registry

end DataBinding
