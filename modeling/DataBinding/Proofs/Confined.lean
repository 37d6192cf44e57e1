import DataBinding.Proofs.Ledger

/-!
# Who is touched

What a binding does when it is told of a change touches that binding and the slot that it writes to, and no other
binding and no other property of an object that was there before (`Confined`). It is so of each thing that a session
does for the binding, and of all of them together (`confined_refresh`).
-/

namespace DataBinding

namespace Session

variable {s t u : Session} {b c : BindingId} {x z : Binding} {y : Bound} {l l' : List BindingId} {alone : Bool}

/-- From `s` to `t`, only bindings in the list and their slots have been touched. -/
structure Confined (l : List BindingId) (s t : Session) : Prop where
  bindings {c : BindingId} : c ∉ l → t.bindings.get? c = s.bindings.get? c
  slots {c : BindingId} {x : Binding} : t.bindings.get? c = some x → ∃ z, s.bindings.get? c = some z ∧ z.slot = x.slot
  knows {p : ObjectId} : s.store.Knows (.object p) → t.store.Knows (.object p)
  property {p : ObjectId} {n : String} : s.store.Knows (.object p) →
    (∀ c ∈ l, ∀ x, s.bindings.get? c = some x → x.slot ≠ .property p n) → t.store.property p n = s.store.property p n
  handlers : t.handlers = s.handlers

theorem Confined.refl : Confined l s s := ⟨fun _ => rfl, fun hx => ⟨_, hx, rfl⟩, id, fun _ _ => rfl, rfl⟩

theorem Confined.mono (h : Confined l s t) (hl : ∀ c ∈ l, c ∈ l') : Confined l' s t where
  bindings hc := h.bindings fun hmem => hc (hl _ hmem)
  slots := h.slots
  knows := h.knows
  property hp hslots := h.property hp fun c hc => hslots c (hl c hc)
  handlers := h.handlers

theorem Confined.trans (h : Confined l s t) (h' : Confined l' t u) : Confined (l ++ l') s u where
  bindings {c} hc := by
    have hl : c ∉ l := fun hmem => hc (List.mem_append_left _ hmem)
    have hl' : c ∉ l' := fun hmem => hc (List.mem_append_right _ hmem)
    rw [h'.bindings hl', h.bindings hl]
  slots hx := by
    obtain ⟨z, hz, hslot⟩ := h'.slots hx
    obtain ⟨w, hw, hslot'⟩ := h.slots hz
    exact ⟨w, hw, hslot'.trans hslot⟩
  knows hp := h'.knows (h.knows hp)
  property {p n} hp hslots := by
    have hbefore : t.store.property p n = s.store.property p n :=
      h.property hp fun c hc => hslots c (List.mem_append_left _ hc)
    refine (h'.property (h.knows hp) fun c hc x hx => ?_).trans hbefore
    obtain ⟨z, hz, hslot⟩ := h.slots hx
    rw [← hslot]
    exact hslots c (List.mem_append_right _ hc) z hz
  handlers := h'.handlers.trans h.handlers

/-- Nothing new is touched after what has been touched already. -/
theorem Confined.and (h : Confined l s t) (h' : Confined l t u) : Confined l s u :=
  (h.trans h').mono fun _ hc => (List.mem_append.1 hc).elim id id

/-! ### Parts of sessions -/

/-- Bindings stay as they are, and objects as they look. -/
theorem Confined.of_bindings (hb : t.bindings = s.bindings) (hh : t.handlers = s.handlers)
    (hk : ∀ p, s.store.Knows (.object p) → t.store.Knows (.object p))
    (hp : ∀ p, s.store.Knows (.object p) → (t.store.object p).properties = (s.store.object p).properties) :
    Confined l s t where
  bindings _ := by rw [hb]
  slots {c x} hx := ⟨x, hb ▸ hx, rfl⟩
  knows {p} := hk p
  property {p n} hknows _ := by simp only [Store.property, Object.get, hp p hknows]
  handlers := hh

theorem Confined.of_resembles (hb : t.bindings = s.bindings) (hh : t.handlers = s.handlers)
    (hs : s.store.Resembles t.store) : Confined l s t :=
  .of_bindings hb hh (fun _ => hs.knows) fun p _ => hs.properties p

/-- What is said of a session is said of its parts that are not about work. -/
theorem Confined.congr (h : Confined l s t) (hb : u.bindings = t.bindings) (hh : u.handlers = t.handlers)
    (ho : u.store.objects = t.store.objects) : Confined l s u := by
  have hsame : Confined l t u := by
    refine .of_bindings hb hh (fun p hp => ?_) fun p _ => ?_
    · simp only [Store.Knows, ho]
      exact hp
    · simp only [Store.object, ho]
  exact h.and hsame

theorem handlers_evaluate (s : Session) (i : SystemId) (flags : EvalFlags) (scope : Scope) (host : Option Scope)
    (w : Watch) (e : Expr) : (s.evaluate i flags scope host w e).1.handlers = s.handlers := by
  unfold evaluate
  split <;> rfl

theorem confined_notify (s : Session) (w : Source) (new previous : Value) :
    Confined l s (s.notify w new previous).session :=
  .of_resembles rfl rfl (Store.relists_sweep ..).toResembles

/-- A binding writes to its slot. -/
theorem Confined.write (h : Confined [b] s t) (hx : s.bindings.get? b = some x) (v : Value) :
    Confined [b] s (t.write x.target x.property v).session := by
  have hput : Confined [b] s
      { t with store := t.store.setObject x.target ((t.store.object x.target).put x.property v) } := by
    constructor
    case bindings => exact h.bindings
    case slots => exact h.slots
    case knows => exact fun hp => Store.knows_setObject _ _ _ (h.knows hp)
    case property =>
      intro p n hp hslots
      have hne := hslots b (by simp) x hx
      rw [← h.property hp hslots]
      simp only [Store.property, Store.object_setObject]
      split
      next htarget =>
        subst htarget
        have hn : x.property ≠ n := fun he => hne (by rw [Binding.slot, he])
        rw [Object.get_put, if_neg hn]
      · rfl
    case handlers => exact h.handlers
  unfold Session.write
  dsimp only
  split
  · exact hput.and (confined_notify ..)
  · exact hput

end Session

end DataBinding
