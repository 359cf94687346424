/-!
# Named fields

The fields of an item or of a map: a list of names with values, in the order of the names and
without a name twice. Writing a field keeps that order, and all else follows from it.
-/

namespace TableQuery

/-- Names with values. -/
abbrev Fields (α : Type) := List (String × α)

namespace Fields

variable {α β : Type}

/-- The value under a name. -/
def get? (name : String) : Fields α → Option α
  | [] => none
  | (k, v) :: rest => if k = name then some v else get? name rest

/-- The fields with `value` under a name, in place of the value that was there. -/
def insert (name : String) (value : α) : Fields α → Fields α
  | [] => [(name, value)]
  | (k, v) :: rest =>
    if name < k then (name, value) :: (k, v) :: rest
    else if k = name then (name, value) :: rest
    else (k, v) :: insert name value rest

/-- The fields without the one under a name. -/
def erase (name : String) : Fields α → Fields α
  | [] => []
  | (k, v) :: rest => if k = name then rest else (k, v) :: erase name rest

/-- The fields of a list in which a later value replaces an earlier one of the same name. -/
def ofList (entries : List (String × α)) : Fields α :=
  entries.foldl (fun fields (k, v) => insert k v fields) []

/-- The names grow from field to field. -/
def Ordered (fields : Fields α) : Prop :=
  (fields.map Prod.fst).Pairwise (· < ·)

end Fields

end TableQuery
