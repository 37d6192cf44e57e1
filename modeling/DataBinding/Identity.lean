/-!
# Identities

Things that are shared are referred to by number. `Thing` lists the sorts of things a session knows, and
`Id k` is the identity of a thing of sort `k`: two identities of different sorts are never confused, and two
things of one sort are the same thing iff their identities are equal. A `Ref` is an identity of whatever sort.
-/

namespace DataBinding

/-- The sorts of things that have an identity. -/
inductive Thing
  | object | stream | scope | system | observer | binding | recorder | sink | collection | record
  deriving DecidableEq

instance : Ord Thing := ⟨compareOn Thing.ctorIdx⟩

instance : Std.TransOrd Thing := inferInstanceAs (Std.TransCmp (compareOn Thing.ctorIdx))

instance : Std.LawfulEqOrd Thing where
  eq_of_compare {a b} h := by
    have h : a.ctorIdx = b.ctorIdx := Nat.compare_eq_eq.1 h
    cases a <;> cases b <;> first | rfl | simp [Thing.ctorIdx] at h

/-- The identity of a thing of sort `k`. -/
structure Id (k : Thing) where
  number : Nat
  deriving DecidableEq

instance {k : Thing} : Ord (Id k) := ⟨compareOn Id.number⟩

instance {k : Thing} : Std.TransOrd (Id k) := inferInstanceAs (Std.TransCmp (compareOn Id.number))

instance {k : Thing} : Std.LawfulEqOrd (Id k) where
  eq_of_compare {a b} h := by
    have h : a.number = b.number := Nat.compare_eq_eq.1 h
    cases a
    cases b
    simpa using h

/-- The identity of a thing of some sort. -/
structure Ref where
  thing : Thing
  number : Nat
  deriving DecidableEq

def Id.ref {k : Thing} (i : Id k) : Ref := ⟨k, i.number⟩

abbrev ObjectId := Id .object
abbrev StreamId := Id .stream
abbrev ScopeId := Id .scope
abbrev SystemId := Id .system
abbrev ObserverId := Id .observer
abbrev BindingId := Id .binding
abbrev RecorderId := Id .recorder
abbrev SinkId := Id .sink
abbrev CollectionId := Id .collection
abbrev RecordId := Id .record

end DataBinding
