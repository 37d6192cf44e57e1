import DataBinding.Store

/-!
# The stream registry

A registry remembers the observer of each stream that it opened one for, and hands the same observer out again as long
as it lives. It keeps nothing alive: an entry is live while its stream and its observer are and the observer is not
destroyed. Whether a stream is alive is for its holders to say, so it comes as the argument `alive`.
-/

namespace DataBinding

structure Registry where
  /-- The number of entries from which dead ones are swept before one is added. -/
  threshold : Nat
  entries : Table StreamId ObserverId := ∅
  /-- How many observers were ever opened. -/
  opened : Nat := 0

namespace Registry

instance : Inhabited Registry := ⟨{ threshold := 64 }⟩

/-- Whether an entry can still be handed out. -/
def isLiveEntry (alive : StreamId → Bool) (s : Store) (i : StreamId) (o : ObserverId) : Bool := s.isLive o && alive i

/-- The live observer of a stream that is alive. -/
def get? (s : Store) (r : Registry) (i : StreamId) : Option ObserverId :=
  (r.entries.get? i).filter fun o => s.isLive o

/-- The live entries. -/
def liveEntries (alive : StreamId → Bool) (s : Store) (r : Registry) : Table StreamId ObserverId :=
  r.entries.filter (isLiveEntry alive s)

/-- How many entries are live. -/
def size (alive : StreamId → Bool) (s : Store) (r : Registry) : Nat := (r.liveEntries alive s).size

/-- Forgets the dead entries. -/
def prune (alive : StreamId → Bool) (s : Store) (r : Registry) : Registry :=
  { r with entries := r.liveEntries alive s }

/-- Whether the dead entries are to be swept before one is added. -/
def isFull (r : Registry) : Bool := max r.threshold 1 ≤ r.entries.size

/-- The observer of a stream that is alive, opened if the registry has no live one. -/
def observerFor (alive : StreamId → Bool) (s : Store) (r : Registry) (i : StreamId) :
    Store × Registry × ObserverId :=
  match r.get? s i with
  | some o => (s, r, o)
  | none =>
    let (s', o) := s.openObserver i
    let r := { r with opened := r.opened + 1 }
    let r := if r.isFull then r.prune alive s' else r
    (s', { r with entries := r.entries.insert i o }, o)

end Registry

end DataBinding
