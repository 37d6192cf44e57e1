import Mathlib.Data.List.Infix
import DataBinding.Object

/-!
# Tokens of registrations

A property keeps a list of its listeners from the first registration on until the last one is taken away
(`Object.keepsListeners`). Each registration gets a token of its own from that list (`Listeners.Continues`), so a token
that was given back means nothing as long as the list is kept. A property that has lost its list hands out the same
tokens from the beginning, and whoever still has an old one takes away a registration of somebody else
(`Object.unwatch_again`).
-/

namespace DataBinding

namespace Listeners

variable {ls ls' ls'' : Listeners} {t : Nat}

theorem has_iff : ls.has t = true ↔ ∃ l, (t, l) ∈ ls.entries := by
  simp [has]

/-- Registrations of the one list that are not of the other have tokens that the other has not handed out yet. -/
structure Continues (ls ls' : Listeners) : Prop where
  nextToken : ls.nextToken ≤ ls'.nextToken
  entries {e : Nat × Listener} : e ∈ ls'.entries → e ∈ ls.entries ∨ ls.nextToken ≤ e.1

theorem Continues.refl : Continues ls ls := ⟨Nat.le_refl _, .inl⟩

theorem Continues.trans (h : Continues ls ls') (h' : Continues ls' ls'') : Continues ls ls'' where
  nextToken := Nat.le_trans h.nextToken h'.nextToken
  entries he := by
    rcases h'.entries he with he | he
    · exact h.entries he
    · exact .inr (Nat.le_trans h.nextToken he)

theorem continues_filter (p : Nat × Listener → Bool) (ls : Listeners) : Continues ls (ls.filter p) :=
  ⟨Nat.le_refl _, fun he => .inl (List.mem_filter.1 he).1⟩

theorem continues_add (ls : Listeners) (l : Listener) : Continues ls (ls.add l).1 where
  nextToken := Nat.le_succ _
  entries he := by
    rcases List.mem_append.1 he with he | he
    · exact .inl he
    · obtain rfl := List.mem_singleton.1 he
      exact .inr (Nat.le_refl _)

/-- A token that was handed out and given back does not come again. -/
theorem Continues.not_has (h : Continues ls ls') (ht : t < ls.nextToken) (hnot : ls.has t = false) :
    ls'.has t = false := by
  rw [← Bool.not_eq_true, has_iff] at hnot ⊢
  rintro ⟨l, hl⟩
  rcases h.entries hl with hold | hnew
  · exact hnot ⟨l, hold⟩
  · exact Nat.lt_irrefl _ (Nat.lt_of_lt_of_le ht hnew)

theorem has_remove (ls : Listeners) (t : Nat) : (ls.remove t).has t = false := by
  simp [has, remove, filter]

/-- Taking away what is not registered changes nothing. -/
theorem entries_remove_of_not_has (h : ls.has t = false) : (ls.remove t).entries = ls.entries := by
  refine List.filter_eq_self.2 fun e he => ?_
  have hne : e.1 ≠ t := by
    rintro rfl
    rw [← Bool.not_eq_true, has_iff] at h
    exact h ⟨e.2, he⟩
  simpa using hne

end Listeners

namespace Object

variable {x : Object} {n m : String} {t : Nat}

/-! ### What can be done to an object -/

/-- What can be done to an object. A write puts a value in place and, if that is a change, forgets the listeners that
are gone. -/
inductive Update
  | put (name : String) (v : Value)
  | watch (name : String) (l : Listener)
  | unwatch (name : String) (token : Nat)
  | sweep (alive : Listener → Bool) (name : String)

def update (x : Object) : Update → Object
  | .put name v => x.put name v
  | .watch name l => (x.watch name l).1
  | .unwatch name token => x.unwatch name token
  | .sweep alive name => x.sweep alive name

/-- The object after one thing and another was done to it. -/
def after (x : Object) (us : List Update) : Object := us.foldl update x

@[simp] theorem after_nil (x : Object) : x.after [] = x := rfl

@[simp] theorem after_cons (x : Object) (u : Update) (us : List Update) :
    x.after (u :: us) = (x.update u).after us := rfl

theorem after_append (x : Object) (us vs : List Update) : x.after (us ++ vs) = (x.after us).after vs :=
  List.foldl_append

/-- Listeners come and go without harm to the properties. -/
theorem properties_update {u : Update} (hu : ∀ name v, u ≠ .put name v) : (x.update u).properties = x.properties := by
  cases u with
  | put name v => exact absurd rfl (hu name v)
  | watch | sweep => rfl
  | unwatch name token =>
    simp only [update, unwatch]
    split <;> rfl

/-! ### The listeners of a property -/

/-- Who listens to a property. -/
def listenersOf (x : Object) (n : String) : Listeners := (x.listeners.get? n).getD {}

/-- Whether the property keeps a list of its listeners. -/
def keepsListeners (x : Object) (n : String) : Bool := x.listeners.contains n

theorem listenersOf_of_not_keeps (h : x.keepsListeners n = false) : x.listenersOf n = {} := by
  have hnone : x.listeners.get? n = none := by simpa [keepsListeners, Table.contains] using h
  simp [listenersOf, hnone]

theorem isWatched_eq (x : Object) (n : String) (t : Nat) : x.isWatched n t = (x.listenersOf n).has t := by
  unfold isWatched listenersOf
  cases x.listeners.get? n <;> rfl

theorem listenersOf_watch (x : Object) (n : String) (l : Listener) (m : String) :
    (x.watch n l).1.listenersOf m = if n = m then ((x.listenersOf n).add l).1 else x.listenersOf m := by
  simp only [listenersOf, watch, Table.get?_insert]
  split <;> rfl

theorem listenersOf_sweep (alive : Listener → Bool) (x : Object) (n m : String) :
    (x.sweep alive n).listenersOf m = if n = m then (x.listenersOf n).sweep alive else x.listenersOf m := by
  simp only [listenersOf, sweep, Table.get?_modify]
  split
  · cases x.listeners.get? n <;> rfl
  · rfl

/-- Taking a registration away leaves the others, of the list if it is kept. -/
theorem listenersOf_unwatch (x : Object) (n : String) (t : Nat) (m : String) :
    (x.unwatch n t).listenersOf m =
      if n = m then
        if (x.unwatch n t).keepsListeners n then (x.listenersOf n).remove t else {}
      else x.listenersOf m := by
  unfold unwatch keepsListeners listenersOf
  cases hl : x.listeners.get? n with
  | none =>
    by_cases hm : n = m
    · subst hm
      simp [hl, Table.contains]
    · simp [hm]
  | some ls =>
    cases he : (ls.remove t).isEmpty with
    | true => by_cases hm : n = m <;> simp [he, hm, Table.contains, Table.get?_erase]
    | false => by_cases hm : n = m <;> simp [he, hm, Table.contains, Table.get?_insert]

/-- Other registrations stay, whether or not the list is kept: it is not when the last registration has gone. -/
theorem entries_unwatch (x : Object) (n : String) (t : Nat) (m : String) :
    ((x.unwatch n t).listenersOf m).entries =
      if n = m then ((x.listenersOf n).remove t).entries else (x.listenersOf m).entries := by
  rw [listenersOf_unwatch]
  split
  next hm =>
    subst hm
    split
    · rfl
    next hlost =>
      unfold unwatch keepsListeners at hlost
      unfold listenersOf
      cases hl : x.listeners.get? n with
      | none => simp [Listeners.remove, Listeners.filter]
      | some ls =>
        -- the list is given up only if it has become empty
        cases he : (ls.remove t).isEmpty with
        | true => exact (List.isEmpty_iff.1 he).symm
        | false => simp [hl, he, Table.contains, Table.get?_insert] at hlost
  · rfl

/-! ### Tokens -/

/-- Whatever is done, a property goes on with its list of listeners, if it keeps one. -/
theorem continues_update (u : Update) (h : (x.update u).keepsListeners n = true) :
    (x.listenersOf n).Continues ((x.update u).listenersOf n) := by
  cases u with
  | put name v => exact .refl
  | watch name l =>
    simp only [update, listenersOf_watch]
    split
    next hn =>
      subst hn
      exact Listeners.continues_add ..
    · exact .refl
  | unwatch name token =>
    simp only [update] at h
    simp only [update, listenersOf_unwatch]
    split
    next hn =>
      subst hn
      rw [if_pos h]
      exact Listeners.continues_filter ..
    · exact .refl
  | sweep alive name =>
    simp only [update, listenersOf_sweep]
    split
    next hn =>
      subst hn
      exact Listeners.continues_filter ..
    · exact .refl

theorem continues_after {us : List Update} (h : ∀ vs, vs <+: us → (x.after vs).keepsListeners n = true) :
    (x.listenersOf n).Continues ((x.after us).listenersOf n) := by
  induction us generalizing x with
  | nil => exact .refl
  | cons u us ih =>
    have hfirst : (x.update u).keepsListeners n = true := h [u] ⟨us, rfl⟩
    have hrest : ∀ vs, vs <+: us → ((x.update u).after vs).keepsListeners n = true :=
      fun vs hvs => h (u :: vs) (List.cons_prefix_cons.2 ⟨rfl, hvs⟩)
    exact (continues_update u hfirst).trans (ih hrest)

/-- Listeners that register one after another get one token after another. -/
theorem entries_watch_all (x : Object) (n : String) (ls : List Listener) :
    ((x.after (ls.map (.watch n))).listenersOf n).entries =
      (x.listenersOf n).entries ++ (ls.zipIdx (x.listenersOf n).nextToken).map Prod.swap := by
  induction ls generalizing x with
  | nil => simp
  | cons l ls ih =>
    have hone : (x.watch n l).1.listenersOf n = ((x.listenersOf n).add l).1 := by rw [listenersOf_watch, if_pos rfl]
    rw [List.map_cons, after_cons, ih]
    simp only [update, hone, Listeners.add, List.append_assoc, List.zipIdx_cons, List.map_cons]
    rfl

/-- A token that was given back is no registration of anybody's as long as the property keeps its list of listeners, and
to take it away again changes nothing. Once the list is lost, the tokens are handed out from the beginning, the old one
among them: the listener that gets it loses its registration to whoever gives the old token back again. -/
theorem unwatch_again (h : x.isWatched n t = true) (us : List Update) :
    ((∀ vs, vs <+: us → ((x.unwatch n t).after vs).keepsListeners n = true) →
      ((x.unwatch n t).after us).isWatched n t = false ∧
        ∀ m, ((((x.unwatch n t).after us).unwatch n t).listenersOf m).entries =
          (((x.unwatch n t).after us).listenersOf m).entries) ∧
    (((x.unwatch n t).after us).keepsListeners n = false → ∀ ls : List Listener,
      (((x.unwatch n t).after (us ++ ls.map (.watch n))).listenersOf n).entries = ls.zipIdx.map Prod.swap ∧
        ((x.unwatch n t).after (us ++ ls.map (.watch n))).isWatched n t = decide (t < ls.length)) := by
  constructor
  · intro hkeeps
    have hkept : (x.unwatch n t).keepsListeners n = true := hkeeps [] (List.nil_prefix)
    have hlist : (x.unwatch n t).listenersOf n = (x.listenersOf n).remove t := by
      rw [listenersOf_unwatch, if_pos rfl, if_pos hkept]
    have hissued : t < ((x.unwatch n t).listenersOf n).nextToken := by
      rw [isWatched_eq, Listeners.has_iff] at h
      obtain ⟨l, hl⟩ := h
      rw [hlist]
      exact (x.listenersOf n).issued _ hl
    have hgone : ((x.unwatch n t).listenersOf n).has t = false := by
      rw [hlist]
      exact Listeners.has_remove ..
    have hnot := (continues_after hkeeps).not_has hissued hgone
    refine ⟨by rw [isWatched_eq, hnot], fun m => ?_⟩
    rw [entries_unwatch]
    split
    next hm => rw [← hm, Listeners.entries_remove_of_not_has hnot]
    · rfl
  · intro hlost ls
    have hentries : (((x.unwatch n t).after (us ++ ls.map (.watch n))).listenersOf n).entries =
        ls.zipIdx.map Prod.swap := by
      rw [after_append, entries_watch_all, listenersOf_of_not_keeps hlost]
      rfl
    refine ⟨hentries, ?_⟩
    have htokens : ∀ l, (t, l) ∈ ls.zipIdx.map Prod.swap ↔ ls[t]? = some l := by
      intro l
      simp only [List.mem_map, Prod.exists, Prod.swap_prod_mk, Prod.mk.injEq, List.mem_zipIdx_iff_getElem?]
      constructor
      · rintro ⟨_, _, hl, rfl, rfl⟩
        exact hl
      · exact fun hl => ⟨l, t, hl, rfl, rfl⟩
    rw [isWatched_eq, Bool.eq_iff_iff, Listeners.has_iff, hentries, decide_eq_true_iff]
    simp only [htokens]
    constructor
    · rintro ⟨l, hl⟩
      exact (List.getElem?_eq_some_iff.1 hl).1
    · intro hlt
      exact ⟨ls[t], List.getElem?_eq_getElem hlt⟩

/-- A property with two listeners keeps its list when the first one leaves; one with a single listener loses it, and the
next listener gets the token of the first. -/
theorem unwatch_again_first :
    let one : Object := (({} : Object).watch "x" (.recorder ⟨0⟩)).1
    let two : Object := (one.watch "x" (.recorder ⟨1⟩)).1
    let later : List Update := [.put "x" .null, .watch "x" (.recorder ⟨2⟩)]
    ((two.unwatch "x" 0).after later).isWatched "x" 0 = false ∧
      ((one.unwatch "x" 0).after later).isWatched "x" 0 = true := by
  intro one two later
  have hone : one.isWatched "x" 0 = true := by decide +kernel
  have htwo : two.isWatched "x" 0 = true := by decide +kernel
  have hkept : ∀ vs ∈ later.inits, ((two.unwatch "x" 0).after vs).keepsListeners "x" = true := by decide +kernel
  have hlost : ((one.unwatch "x" 0).after [.put "x" .null]).keepsListeners "x" = false := by decide +kernel
  constructor
  · exact ((unwatch_again htwo later).1 fun vs hvs => hkept vs ((List.mem_inits vs later).2 hvs)).1
  · exact ((unwatch_again hone [.put "x" .null]).2 hlost [.recorder ⟨2⟩]).2.trans (by decide)

/-- A token that was given back may take away the registration of another listener. -/
theorem unwatch_of_other :
    let one : Object := (({} : Object).watch "x" (.recorder ⟨0⟩)).1
    let other : Object := ((one.unwatch "x" 0).watch "x" (.recorder ⟨1⟩)).1
    one.isWatched "x" 0 = true ∧ (one.unwatch "x" 0).isWatched "x" 0 = false ∧
      (other.listenersOf "x").entries = [(0, .recorder ⟨1⟩)] ∧ other.isWatched "x" 0 = true ∧
      ((other.unwatch "x" 0).listenersOf "x").entries = [] := by
  decide +kernel

end Object

end DataBinding
