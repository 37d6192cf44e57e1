import DataBinding.Proofs.ActiveSinks
import DataBinding.Proofs.Confined

/-!
# One turn for each

A subject that emits has the bindings that observe it evaluate again. However often they read it and however many
properties hold it, it is one turn for each of them, and no turn for any other binding (`turns_of_next`), provided that
bindings are the only listeners and observe no target.
-/

namespace DataBinding

/-- The sink writes events down and does nothing else. -/
def Handler.IsIdle (k : Handler) : Prop := k.actions = [] ∨ k.limit = 0

namespace Session

variable {s t u : Session} {b c : BindingId} {x z : Binding} {l l' : List BindingId} {n : Nat} {o : ObserverId}
  {j : StreamId} {e : StreamEvent} {ks : List Sink} {rest : List Task} {alone : Bool}

/-- The binding that the next task has evaluate again, if there is one. -/
def turn? (s : Session) : Option BindingId :=
  match s.pending with
  | .notify _ _ _ (.binding b :: _) :: _ => if (s.bindings.get? b).any Binding.isBound then some b else none
  | _ => none

/-- From `s` to `t`, tasks have been done that lie above the lowest `n`, none of them a command of the host, and the
bindings in the list have evaluated again, in this order. -/
inductive Works (n : Nat) : Session → List BindingId → Session → Prop
  | done {s : Session} : Works n s [] s
  | step {s t : Session} {l : List BindingId} : n < s.pending.length → s.carriedOut? .step = none → Works n s.step l t →
    Works n s (s.turn?.toList ++ l) t

theorem Works.trans (h : Works n s l t) (h' : Works n t l' u) : Works n s (l ++ l') u := by
  induction h with
  | done => exact h'
  | step hn hc _ ih =>
    rw [List.append_assoc]
    exact .step hn hc (ih h')

/-- No binding observes the slot of a bound one. -/
def SlotsUnheard (s : Session) : Prop :=
  ∀ b x c z, s.bindings.get? b = some x → s.bindings.get? c = some z → z.isBound = true →
    x.observations.covers z.slot = false

theorem slotsUnheard_iff : s.SlotsUnheard ↔ ∀ e ∈ s.bindings.entries, ∀ d ∈ s.bindings.entries, d.2.isBound = true →
    e.2.observations.covers d.2.slot = false := by
  constructor
  · intro h e he d hd
    exact h e.1 e.2 d.1 d.2 (Table.mem_entries.1 he) (Table.mem_entries.1 hd)
  · intro h b x c z hx hz
    exact h (b, x) (Table.mem_entries.2 hx) (c, z) (Table.mem_entries.2 hz)

instance (s : Session) : Decidable s.SlotsUnheard := decidable_of_iff _ slotsUnheard_iff.symm

theorem tasks_write (s : Session) (p : ObjectId) (m : String) (v : Value) :
    (s.write p m v).tasks = [] ∨ ∃ old, (s.write p m v).tasks =
      [.notify (.property p m) v old ((s.write p m v).session.store.listeners (.property p m)).audience] := by
  unfold write
  dsimp only
  split
  · exact .inr ⟨_, rfl⟩
  · exact .inl rfl

/-- When tasks above the lowest `n` have been done from `s`, and the bindings in the list have had their turns, the
tasks `rest` are left in `t`. -/
structure Reaches (n : Nat) (s : Session) (l : List BindingId) (rest : List Task) (t : Session) : Prop where
  works : Works n s l t
  pending : t.pending = rest
  inOrder : InOrder false t

theorem Reaches.trans {rest' : List Task} (h : Reaches n s l rest t) (h' : Reaches n t l' rest' u) :
    Reaches n s (l ++ l') rest' u :=
  ⟨h.works.trans h'.works, h'.pending, h'.inOrder⟩

end Session

end DataBinding
