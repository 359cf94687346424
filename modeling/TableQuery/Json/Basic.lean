/-!
# JSON trees

The tree of a JSON text as far as the text is JSON. A reader that takes the tree apart in the order
of the text meets what is wrong with the text at the place where it is wrong.
-/

namespace TableQuery

/-- How the parts of an array or object end. -/
inductive Json.Ending where
  /-- with the closing bracket -/
  | closed
  /-- in front of a member whose name writes no text, behind which the object goes on -/
  | unnamed
  /-- nowhere: the text stops being JSON -/
  | cut
  deriving Repr, DecidableEq, Inhabited

/-- A JSON value. -/
inductive Json where
  | null
  | bool (b : Bool)
  /-- a number, as it is written -/
  | number (numeral : String)
  | string (text : String)
  /-- a string that writes no text: half of a character beyond the first plane stands alone in it -/
  | garbled
  | array (elements : List Json) (ending : Json.Ending)
  | object (members : List (String × Json)) (ending : Json.Ending)
  /-- an object that begins with a value that is no string instead of a name: the text stops being
  JSON behind that value -/
  | misnamed (value : Json)
  /-- no value: the text stops being JSON here -/
  | cut
  deriving Repr, Inhabited

namespace Json

/-- The array of some elements. -/
def ofElements (elements : List Json) : Json :=
  .array elements .closed

/-- The object of some members. -/
def ofMembers (members : List (String × Json)) : Json :=
  .object members .closed

/-- A text, or null. -/
def ofString? (text : Option String) : Json :=
  text.elim .null .string

mutual

/-- The tree in which no more than `depth` arrays and objects are open at a time: the text is not
read into one that is deeper. -/
def upTo (depth : Nat) : Json → Json
  | .array elements ending =>
    match depth with
    | 0 => .array [] .cut
    | depth + 1 => .array (elementsUpTo depth elements) ending
  | .object members ending =>
    match depth with
    | 0 => .object [] .cut
    | depth + 1 => .object (membersUpTo depth members) ending
  | .misnamed j =>
    match depth with
    | 0 => .object [] .cut
    | depth + 1 => .misnamed (j.upTo depth)
  | .null => .null
  | .bool b => .bool b
  | .number n => .number n
  | .string s => .string s
  | .garbled => .garbled
  | .cut => .cut

/-- The elements of an array, each up to a depth. -/
def elementsUpTo (depth : Nat) : List Json → List Json
  | [] => []
  | j :: rest => j.upTo depth :: elementsUpTo depth rest

/-- The members of an object, each up to a depth. -/
def membersUpTo (depth : Nat) : List (String × Json) → List (String × Json)
  | [] => []
  | (k, j) :: rest => (k, j.upTo depth) :: membersUpTo depth rest

end

end Json

end TableQuery
