import DataBinding.Proofs.OneObserver

/-!
# What becomes of a binding

A session may do much to a binding that it has, but the binding keeps its expression and its system and shows a failure
only if its expression can have one (`Binding.Becomes`). So it is after a run (`becomes_play`), and since the identities
of bindings were all taken before (`old_bindings_play`), a binding that is gone does not come back.
-/

namespace DataBinding

namespace Session

variable {s : Session} {b : BindingId} {x : Binding} {e : Effect} {E : Effect → Prop} {bs : List Act}

/-- A binding turns into what it may turn into, or it is new and has not failed. -/
theorem Move.becomes {p q : Ghost × Session} (hm : Move e p q) (h : q.2.bindings.get? b = some x) :
    (∃ z, p.2.bindings.get? b = some z ∧ z.Becomes x) ∨
      b = ⟨p.2.store.fresh⟩ ∧ q.2.store.fresh = p.2.store.fresh + 1 := by
  cases hm with
  | bindings _ hs => exact .inl (hs b x h)
  | newBinding =>
    rw [Table.get?_insert] at h
    split at h
    next hb => exact .inr ⟨hb.symm, rfl⟩
    · exact .inl ⟨x, h, .refl x⟩
  | destroying | erasing | releasing =>
    rw [close_bindings] at h
    exact .inl ⟨x, h, .refl x⟩
  | _ => exact .inl ⟨x, h, .refl x⟩

theorem Moves.becomes {p q : Ghost × Session} (hm : Moves E p q) (hb : b.number < p.2.store.fresh)
    (h : q.2.bindings.get? b = some x) : ∃ z, p.2.bindings.get? b = some z ∧ z.Becomes x := by
  induction hm generalizing x with
  | refl => exact ⟨x, h, .refl x⟩
  | tail hm hlast ih =>
    obtain ⟨f, -, hlast⟩ := hlast
    rcases hlast.becomes h with ⟨z, hz, hbecomes⟩ | ⟨rfl, -⟩
    · obtain ⟨w, hw, hbecomes'⟩ := ih hz
      exact ⟨w, hw, hbecomes'.trans hbecomes⟩
    · exact absurd (Nat.lt_of_lt_of_le hb (Moves.fresh_le hm)) (Nat.lt_irrefl _)

/-- The identities of bindings were taken before. -/
theorem Moves.old_bindings {p q : Ghost × Session} (hm : Moves E p q)
    (h : ∀ b x, p.2.bindings.get? b = some x → b.number < p.2.store.fresh) :
    ∀ b x, q.2.bindings.get? b = some x → b.number < q.2.store.fresh := by
  induction hm with
  | refl => exact h
  | tail _ hlast ih =>
    obtain ⟨f, -, hlast⟩ := hlast
    intro b x hx
    rcases hlast.becomes hx with ⟨z, hz, -⟩ | ⟨rfl, hfresh⟩
    · exact Nat.lt_of_lt_of_le (ih b z hz) hlast.fresh_le
    · rw [hfresh]
      exact Nat.lt_succ_self _

/-- Identities are not given out twice. -/
theorem fresh_le_act (h : Sound (· ∈ s.held) s) (a : Act) : s.store.fresh ≤ (s.act a).store.fresh := by
  obtain ⟨g, hm⟩ := moves_act h (fun _ _ _ => False) a
  exact Moves.fresh_le hm

/-- Whatever happens, a binding keeps its expression and its system, and shows no failure that its expression cannot
have. -/
theorem becomes_play (hsound : Sound (· ∈ s.held) s) (hb : b.number < s.store.fresh)
    (h : (s.play bs).bindings.get? b = some x) : ∃ z, s.bindings.get? b = some z ∧ z.Becomes x := by
  obtain ⟨g, hm⟩ := moves_play hsound (fun _ _ _ => False) bs
  exact Moves.becomes hm hb h

theorem old_bindings_play (as : List Act) : ∀ b x, (initial.play as).bindings.get? b = some x →
    b.number < (initial.play as).store.fresh := by
  obtain ⟨g, hm⟩ := moves_play sound_initial (fun _ _ _ => False) as
  exact Moves.old_bindings hm fun b x hx => by cases hx

end Session

end DataBinding
