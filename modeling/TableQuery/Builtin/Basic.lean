/-!
# Built-in functions

The functions that expressions can call, by name.
-/

namespace TableQuery

/-- A built-in function. -/
inductive Builtin where
  | size | range | csv | marked | mapstr | pasteboard | now | add | concat
  deriving Repr, DecidableEq, Inhabited

namespace Builtin

/-- The name of a function. -/
def name : Builtin → String
  | .size => "size"
  | .range => "range"
  | .csv => "csv"
  | .marked => "marked"
  | .mapstr => "mapstr"
  | .pasteboard => "pasteboard"
  | .now => "_x_now"
  | .add => "_x_add"
  | .concat => "_x_concat"

/-- Every function, in the order of the names. -/
def all : List Builtin :=
  [.add, .concat, .now, .csv, .mapstr, .marked, .pasteboard, .range, .size]

/-- The function of a name. -/
def ofName? (name : String) : Option Builtin :=
  all.find? fun f => f.name == name

end Builtin

end TableQuery
