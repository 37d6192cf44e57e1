import DataBinding.Json

/-!
# Records in JSON

A record with named fields is an object with a member for each field, in any order, or an array of the fields in
their order of declaration, where the last ones may be missing. A field is read at most once: a repeated member is
refused.
-/

namespace DataBinding

namespace Json

variable {α : Type}

/-- The value of each field, if no field has two. Members with other names are passed over. -/
def ofMembers? (fields : List String) (members : List (String × α)) : Option (List (Option α)) :=
  if fields.all fun f => (members.filter fun m => m.1 == f).length ≤ 1 then
    some (fields.map fun f => members.lookup f)
  else none

/-- The value of each field in order, if there are not more values than fields. -/
def ofItems? (fields : List String) (items : List α) : Option (List (Option α)) :=
  if items.length ≤ fields.length then
    some (items.map some ++ List.replicate (fields.length - items.length) none)
  else none

/-- The value of each field of a record in which nothing else may stand. -/
def fields? (fields : List String) : Json → Option (List (Option Json))
  | .object members => if members.all fun m => fields.contains m.1 then ofMembers? fields members else none
  | .array items => ofItems? fields items
  | _ => none

/-- A field that may be missing; it is then `default`. -/
def orDefault {β : Type} (default : β) (read : α → Option β) : Option α → Option β
  | none => some default
  | some a => read a

/-- A field that must be there. -/
def required {β : Type} (read : α → Option β) (field : Option α) : Option β := field.bind read

end Json

end DataBinding
