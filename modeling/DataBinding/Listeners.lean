import DataBinding.Value

/-!
# Listeners

A source of change keeps its listeners in the order in which they registered. A registration is known by a token that
the collection hands out; it does not keep the listener alive, and a listener may register more than once.
-/

namespace DataBinding

/-- Who is told of a change: a binding, or a recorder of the host. -/
inductive Listener
  | binding (b : BindingId)
  | recorder (r : RecorderId)
  deriving DecidableEq

namespace Listeners

theorem ascending_nil : ([] : List (Nat × Listener)).Pairwise fun a b => a.1 < b.1 := .nil

theorem issued_nil : ∀ e ∈ ([] : List (Nat × Listener)), e.1 < 0 := List.forall_mem_nil _

end Listeners

/-- The registrations with one source, oldest first: no two have the same token, and later ones have greater tokens. -/
structure Listeners where
  nextToken : Nat := 0
  entries : List (Nat × Listener) := []
  ascending : entries.Pairwise fun a b => a.1 < b.1 := by exact Listeners.ascending_nil
  issued : ∀ e ∈ entries, e.1 < nextToken := by exact Listeners.issued_nil
  deriving DecidableEq

namespace Listeners

instance : Inhabited Listeners := ⟨{}⟩

def size (ls : Listeners) : Nat := ls.entries.length

def isEmpty (ls : Listeners) : Bool := ls.entries.isEmpty

/-- The registrations that pass the test. -/
def filter (p : Nat × Listener → Bool) (ls : Listeners) : Listeners where
  nextToken := ls.nextToken
  entries := ls.entries.filter p
  ascending := ls.ascending.filter p
  issued e he := ls.issued e ((List.mem_filter.1 he).1)

/-- Registers a listener after all others, under a new token. -/
def add (ls : Listeners) (l : Listener) : Listeners × Nat where
  fst :=
    { nextToken := ls.nextToken + 1
      entries := ls.entries ++ [(ls.nextToken, l)]
      ascending := by simpa [List.pairwise_append] using ⟨ls.ascending, fun a b h => ls.issued _ h⟩
      issued := by
        intro e he
        rcases List.mem_append.1 he with he | he
        · exact Nat.lt_succ_of_lt (ls.issued e he)
        · simp [List.mem_singleton.1 he] }
  snd := ls.nextToken

def has (ls : Listeners) (token : Nat) : Bool := ls.entries.any fun e => e.1 == token

def remove (ls : Listeners) (token : Nat) : Listeners := ls.filter fun e => e.1 != token

/-- Forgets the registrations of listeners that are gone. -/
def sweep (alive : Listener → Bool) (ls : Listeners) : Listeners := ls.filter fun e => alive e.2

/-- Whom a change that happens now is told to, in this order. -/
def audience (ls : Listeners) : List Listener := ls.entries.map (·.2)

end Listeners

end DataBinding
