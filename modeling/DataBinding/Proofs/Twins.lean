import DataBinding.Proofs.AlikeRegistries
import DataBinding.Proofs.Recast
import DataBinding.Proofs.Shutdown

/-!
# Twin sessions

Two sessions are `Twins` if they differ in nothing but when the registries of their systems sweep: each system of one
has its like in the other, and all else is the same, except for what replies that were written down say of the entries
of a registry. An operation that does not look at systems keeps twins (`Twins.keep`), and so does an evaluation
(`Twins.evaluate`), for it only asks registries for the observers of streams in hand.
-/

namespace DataBinding

/-- A reply without what it may say of the entries of a registry: how many were swept, or a description. -/
def Reply.blank : Reply → Reply
  | count _ => count 0
  | text _ => text ""
  | r => r

/-- The systems differ in nothing but when their registries sweep. -/
structure System.Alike (H : StreamId → Prop) (s : Store) (z z' : System) : Prop where
  marker : z'.config.marker = z.config.marker
  leafOnly : z'.config.leafOnly = z.config.leafOnly
  converters : z'.converters = z.converters
  registry : z.registry.Alike H s z'.registry

theorem System.Alike.later {H H' : StreamId → Prop} {s s' : Store} {z z' : System} (h : z.Alike H s z')
    (hf : s.fresh ≤ s'.fresh) (hlive : ∀ o : ObserverId, o.number < s.fresh → s'.isLive o = true → s.isLive o = true)
    (hH : ∀ i : StreamId, i.number < s.fresh → H' i → H i) : z.Alike H' s' z' :=
  { h with registry := h.registry.later hf hlive hH }

/-- What is said of both or of neither may be weakened. -/
theorem rel_imp {α β : Type} {R R' : α → β → Prop} (h : ∀ a b, R a b → R' a b) {a : Option α} {b : Option β}
    (hab : Option.Rel R a b) : Option.Rel R' a b := by
  cases hab with
  | none => exact .none
  | some hab => exact .some (h _ _ hab)

namespace Session

variable {g g' : Ghost} {H H' : Shared → Prop} {s s' t t' : Session} {E : Effect → Prop} {y : SystemId} {z z' : System}

/-- All of the session but its systems and what replies say of them. -/
def rest (s : Session) : Session := s.recast Reply.blank ∅

structure Twins (H : Shared → Prop) (s t : Session) : Prop where
  rest : t.rest = s.rest
  systems (y : SystemId) :
    Option.Rel (System.Alike (fun i => H (.stream i)) s.store) (s.systems.get? y) (t.systems.get? y)

/-! ### What twins share -/

/-- What does not depend on systems and replies is the same. -/
theorem Twins.same {α : Type} (h : Twins H s t) (f : Session → α) (hf : ∀ u, f u.rest = f u) : f t = f s := by
  rw [← hf t, h.rest, hf]

theorem Twins.store (h : Twins H s t) : t.store = s.store := h.same Session.store fun _ => rfl

theorem Twins.scopes (h : Twins H s t) : t.scopes = s.scopes := h.same Session.scopes fun _ => rfl

theorem Twins.bindings (h : Twins H s t) : t.bindings = s.bindings := h.same Session.bindings fun _ => rfl

theorem Twins.names (h : Twins H s t) : t.names = s.names := h.same Session.names fun _ => rfl

theorem Twins.isAlive (h : Twins H s t) : t.isAlive = s.isAlive := h.same Session.isAlive fun _ => isAlive_recast

theorem Twins.get?_system (h : Twins H s t) (hz : s.systems.get? y = some z) :
    ∃ z', t.systems.get? y = some z' ∧ z.Alike (fun i => H (.stream i)) s.store z' := by
  have hy := h.systems y
  rw [hz] at hy
  cases hz' : t.systems.get? y with
  | none =>
    rw [hz'] at hy
    cases hy
  | some z' =>
    rw [hz'] at hy
    cases hy with
    | some hy => exact ⟨z', rfl, hy⟩

theorem Twins.get?_system_none (h : Twins H s t) (hz : s.systems.get? y = none) : t.systems.get? y = none := by
  have hy := h.systems y
  rw [hz] at hy
  cases hz' : t.systems.get? y with
  | none => rfl
  | some z' =>
    rw [hz'] at hy
    cases hy

theorem Twins.symm {H : Shared → Prop} (h : Twins H s t) : Twins H t s where
  rest := h.rest.symm
  systems x := by
    rw [h.store]
    cases hz : s.systems.get? x with
    | none =>
      rw [h.get?_system_none hz]
      exact .none
    | some z =>
      obtain ⟨z', hz', halike⟩ := h.get?_system hz
      rw [hz']
      exact .some ⟨halike.marker.symm, halike.leafOnly.symm, halike.converters.symm, halike.registry.symm⟩

/-! ### Staying twins -/

/-- Systems stay alike while the sessions go on. -/
theorem alike_of_moves (h : z.Alike (fun i => g.hand (.stream i)) s.store z') (hs : Sound g.hand s)
    (hm : Moves E (g, s) (g', s')) : z.Alike (fun i => g'.hand (.stream i)) s'.store z' :=
  h.later (Moves.fresh_le hm) (fun _ ho hlive => Moves.isLive hm ho hlive) fun _ hi hhand =>
    Moves.hand_stream hm hs hi hhand

/-- Systems that are alike for streams in hand are so for all that are alive. -/
theorem alike_alive (h : z.Alike (fun i => g.hand (.stream i)) s.store z') (hs : Sound g.hand s) :
    z.registry.Alike (fun i => s.isAlive i = true) s.store z'.registry :=
  h.registry.later (Nat.le_refl _) (fun _ _ => id) fun _ _ hi => hs.held _ (isAlive_iff.1 hi)

/-- Twins stay twins when neither's systems change. -/
theorem Twins.later (h : Twins g.hand s t) (hs : Sound g.hand s) (hm : Moves E (g, s) (g', s'))
    (hrest : t'.rest = s'.rest) (hsystems : s'.systems = s.systems) (hsystems' : t'.systems = t.systems) :
    Twins g'.hand s' t' where
  rest := hrest
  systems y := by
    rw [hsystems, hsystems']
    exact rel_imp (fun _ _ hab => alike_of_moves hab hs hm) (h.systems y)

/-- An operation that does the same whatever the systems are keeps twins. -/
theorem Twins.keep (h : Twins g.hand s t) (hs : Sound g.hand s) {f : Session → Session}
    (hf : ∀ u (ρ : Reply → Reply) (X : Table SystemId System), f (u.recast ρ X) = (f u).recast ρ X)
    (hm : Moves E (g, s) (g', f s)) : Twins g'.hand (f s) (f t) := by
  refine h.later hs hm ?_ (systems_of_recast hf s) (systems_of_recast hf t)
  unfold Session.rest
  rw [← hf, ← hf]
  exact congrArg f h.rest

/-- Twins stay twins when a system of each is exchanged for systems that are alike. -/
theorem Twins.insert (h : Twins g.hand s t) (hs : Sound g.hand s) (hm : Moves E (g, s) (g', s'))
    (hrest : t'.rest = s'.rest) (hsystems : s'.systems = s.systems.insert y z)
    (hsystems' : t'.systems = t.systems.insert y z') (hz : z.Alike (fun i => g'.hand (.stream i)) s'.store z') :
    Twins g'.hand s' t' where
  rest := hrest
  systems x := by
    rw [hsystems, hsystems', Table.get?_insert, Table.get?_insert]
    by_cases hx : y = x
    · rw [if_pos hx, if_pos hx]
      exact .some hz
    · rw [if_neg hx, if_neg hx]
      exact rel_imp (fun _ _ hab => alike_of_moves hab hs hm) (h.systems x)

/-- Fewer things may be in hand. -/
theorem Twins.mono (h : Twins H s t) (hH : ∀ x, H' x → H x) : Twins H' s t where
  rest := h.rest
  systems y :=
    rel_imp (fun _ _ hab => hab.later (Nat.le_refl _) (fun _ _ => id) fun _ _ => hH _) (h.systems y)

end Session

end DataBinding
