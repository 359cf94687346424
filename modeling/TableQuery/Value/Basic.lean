import TableQuery.Stored.Basic
import TableQuery.Text.Blank

/-!
# Values

The values of expressions, what can be asked of them, and how they stand to stored values. A value
is asked for what it can give (a text, a number, elements, fields) and gives nothing if it is of
another kind; text is read as a number, or a number as text, only where that is asked for.
-/

namespace TableQuery

/-- A value of an expression. -/
inductive Value where
  | string (s : String)
  | int (n : Int64)
  | decimal (d : Decimal)
  | bool (b : Bool)
  | null
  | list (elements : List Value)
  | map (fields : List (String × Value))
  /-- a stored value that expressions have no kind for: binary data or a set -/
  | stored (v : Stored)
  deriving Repr, Inhabited

/-- Why a stored value has no value in expressions. -/
inductive ConversionError where
  /-- the numeral of a number writes none -/
  | invalidNumber (numeral : String)
  /-- a null value is flagged false -/
  | falseNull
  deriving Repr, DecidableEq

/-- The text of a truth value. -/
def boolText (b : Bool) : String :=
  if b then "true" else "false"

namespace Value

/-- The text of a string. -/
def string? : Value → Option String
  | .string s => some s
  | _ => none

/-- The number of an integer or a decimal. -/
def decimal? : Value → Option Decimal
  | .int n => some (.ofInt n.toInt)
  | .decimal d => some d
  | _ => none

/-- The elements of a stored set; an element of a number set that is no number is missing. -/
def setElements : Stored → List (Option Value)
  | .strings xs => xs.map fun s => some (.string s)
  | .numbers xs => xs.map fun n => (Decimal.ofText? n).map .decimal
  | .binaries xs => xs.map fun bytes => some (.stored (.binary bytes))
  | _ => []

/-- The elements of a list or of a set. -/
def elements? : Value → Option (List (Option Value))
  | .list xs => some (xs.map some)
  | .stored v => if v.isSet then some (setElements v) else none
  | _ => none

/-- The fields of a map. -/
def fields? : Value → Option (Fields Value)
  | .map fields => some fields
  | _ => none

/-- The text that a string, a number or a truth value is read as. -/
def asText? : Value → Option String
  | .string s => some s
  | .int n => some (Text.intText n.toInt)
  | .decimal d => some d.text
  | .bool b => some (boolText b)
  | _ => none

/-- The number that a number, or a text with blanks around a number, is read as. -/
def asDecimal? : Value → Option Decimal
  | .string s => Decimal.ofChars? (Text.trim s.toList)
  | v => v.decimal?

/-- The stored type of a value. -/
def tag : Value → TypeTag
  | .string _ => .string
  | .int _ | .decimal _ => .number
  | .bool _ => .bool
  | .null => .null
  | .list _ => .list
  | .map _ => .map
  | .stored v => v.tag

mutual

/-- The text of a value. -/
def text : Value → String
  | .string s => s
  | .int n => Text.intText n.toInt
  | .decimal d => d.text
  | .bool b => boolText b
  | .null => "null"
  | .list xs => "[" ++ ", ".intercalate (elementTexts xs) ++ "]"
  | .map fields => "\x7b" ++ ", ".intercalate (fieldTexts fields) ++ "\x7d"
  | .stored v => v.text

/-- The texts of elements. -/
def elementTexts : List Value → List String
  | [] => []
  | v :: rest => v.text :: elementTexts rest

/-- The texts of fields. -/
def fieldTexts : List (String × Value) → List String
  | [] => []
  | (k, v) :: rest => (k ++ ": " ++ v.text) :: fieldTexts rest

end

mutual

/-- The stored form of a value. -/
def toStored : Value → Stored
  | .string s => .string s
  | .int n => .number (Text.intText n.toInt)
  | .decimal d => .number d.text
  | .bool b => .bool b
  | .null => .null true
  | .list xs => .list (elementsToStored xs)
  | .map fields => .map (fieldsToStored fields)
  | .stored v => v

/-- The stored forms of elements. -/
def elementsToStored : List Value → List Stored
  | [] => []
  | v :: rest => v.toStored :: elementsToStored rest

/-- The stored forms of fields. -/
def fieldsToStored : List (String × Value) → List (String × Stored)
  | [] => []
  | (k, v) :: rest => (k, v.toStored) :: fieldsToStored rest

end

mutual

/-- The value of a stored value. -/
def ofStored : Stored → Except ConversionError Value
  | .string s => .ok (.string s)
  | .number n =>
    match Decimal.ofText? n with
    | some d => .ok (.decimal d)
    | none => .error (.invalidNumber n)
  | .bool b => .ok (.bool b)
  | .null flag => if flag then .ok .null else .error .falseNull
  | .list xs => (elementsOfStored xs).map .list
  | .map fields => (fieldsOfStored fields).map .map
  | .binary bytes => .ok (.stored (.binary bytes))
  | .strings xs => .ok (.stored (.strings xs))
  | .numbers xs => .ok (.stored (.numbers xs))
  | .binaries xs => .ok (.stored (.binaries xs))

/-- The values of stored elements. -/
def elementsOfStored : List Stored → Except ConversionError (List Value)
  | [] => .ok []
  | v :: rest => do
    let w ← ofStored v
    let more ← elementsOfStored rest
    return w :: more

/-- The values of stored fields. -/
def fieldsOfStored :
    List (String × Stored) → Except ConversionError (List (String × Value))
  | [] => .ok []
  | (k, v) :: rest => do
    let w ← ofStored v
    let more ← fieldsOfStored rest
    return (k, w) :: more

end

end Value

end TableQuery
