import DataBinding.Source

/-!
# Observations

What a listener observes is kept in a record, with one entry for each source. Each round of reading has a version: a
source that is read gets the version of the round, and one that the latest round did not read is stale. An entry owns
its registration with the source, which is to be taken away when the entry is given up.
-/

namespace DataBinding

structure Observation where
  source : Source
  /-- The registration with the source. -/
  token : Nat
  /-- The last round in which the source was read. -/
  version : UInt64
  deriving DecidableEq

theorem Observations.distinct_nil : ([] : List Observation).Pairwise fun a b => a.source ≠ b.source := .nil

/-- A record of what is observed, in the order in which the sources were first read, each source once. -/
structure Observations where
  version : UInt64 := 0
  entries : List Observation := []
  distinct : entries.Pairwise fun a b => a.source ≠ b.source := by exact Observations.distinct_nil
  deriving DecidableEq

namespace Observations

instance : Inhabited Observations := ⟨{}⟩

/-- Starts a round of reading. -/
def nextRound (r : Observations) : Observations := { r with version := r.version + 1 }

def covers (r : Observations) (x : Source) : Bool := r.entries.any fun e => e.source = x

/-- Gives the entry of a source the version of the round. -/
def restamp (r : Observations) (x : Source) : Observations where
  version := r.version
  entries := r.entries.map fun e => if e.source = x then { e with version := r.version } else e
  distinct := by
    rw [List.pairwise_map]
    refine r.distinct.imp fun {a b} h => ?_
    split <;> split <;> exact h

/-- Adds an entry for a source that is read for the first time. -/
def add (r : Observations) (x : Source) (token : Nat) (h : ¬r.covers x) : Observations where
  version := r.version
  entries := r.entries ++ [{ source := x, token, version := r.version }]
  distinct := by
    refine List.pairwise_append.2 ⟨r.distinct, List.pairwise_singleton .., fun a ha b hb => ?_⟩
    rw [List.mem_singleton.1 hb]
    exact fun he => h (List.any_eq_true.2 ⟨a, ha, by simpa using he⟩)

/-- Whether the latest round read the source of the entry. -/
def isFresh (r : Observations) (e : Observation) : Bool := e.version = r.version

/-- The record without its stale entries. -/
def fresh (r : Observations) : Observations where
  version := r.version
  entries := r.entries.filter r.isFresh
  distinct := r.distinct.filter _

/-- The entries that the latest round did not read. -/
def stale (r : Observations) : List Observation := r.entries.filter fun e => !r.isFresh e

def cleared (r : Observations) : Observations := { version := r.version }

def size (r : Observations) : Nat := r.entries.length

/-- How many of the sources are observers of streams. -/
def streamCount (r : Observations) : Nat := (r.entries.filter fun e => e.source.isObserver).length

/-- Records that a source was read. The listener is registered with it unless it already is. -/
def observe (r : Observations) (s : Store) (l : Listener) (x : Source) : Store × Observations :=
  if h : r.covers x then (s, r.restamp x)
  else
    let (s', token) := s.listen l x
    (s', r.add x token h)

end Observations

end DataBinding
