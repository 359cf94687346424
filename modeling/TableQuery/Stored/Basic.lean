import TableQuery.Decimal.Text
import TableQuery.Fields

/-!
# Stored values

A value as an item holds it. Numbers are kept as they are written, and are read only where their
value matters.
-/

namespace TableQuery

/-- The types of stored values. -/
inductive TypeTag where
  | string | number | binary | strings | numbers | binaries | bool | null | list | map
  deriving Repr, DecidableEq, Inhabited

namespace TypeTag

/-- Every type, in the order in which they are listed. -/
def all : List TypeTag :=
  [.string, .number, .binary, .strings, .numbers, .binaries, .bool, .null, .list, .map]

/-- The short name of a type. -/
def text : TypeTag → String
  | .string => "S"
  | .number => "N"
  | .binary => "B"
  | .strings => "SS"
  | .numbers => "NS"
  | .binaries => "BS"
  | .bool => "BOOL"
  | .null => "NULL"
  | .list => "L"
  | .map => "M"

/-- The type of a short name. -/
def ofText? (text : String) : Option TypeTag :=
  all.find? fun tag => tag.text == text

end TypeTag

/-- A stored value. -/
inductive Stored where
  | string (s : String)
  /-- a number as it is written, which may be no number at all -/
  | number (numeral : String)
  | binary (bytes : List UInt8)
  | strings (elements : List String)
  | numbers (numerals : List String)
  | binaries (elements : List (List UInt8))
  | bool (b : Bool)
  /-- the null value; only `true` is a valid flag -/
  | null (flag : Bool)
  | list (elements : List Stored)
  | map (fields : List (String × Stored))
  deriving Repr, Inhabited

namespace Stored

/-- The type of a stored value. -/
def tag : Stored → TypeTag
  | .string _ => .string
  | .number _ => .number
  | .binary _ => .binary
  | .strings _ => .strings
  | .numbers _ => .numbers
  | .binaries _ => .binaries
  | .bool _ => .bool
  | .null _ => .null
  | .list _ => .list
  | .map _ => .map

/-- The value is a set of strings, numbers or binaries. -/
def isSet : Stored → Bool
  | .strings _ | .numbers _ | .binaries _ => true
  | _ => false

/-- The text of a string. -/
def string? : Stored → Option String
  | .string s => some s
  | _ => none

/-- The numeral of a number. -/
def numeral? : Stored → Option String
  | .number n => some n
  | _ => none

/-- The number that a stored number writes. -/
def decimal? (v : Stored) : Option Decimal :=
  v.numeral?.bind Decimal.ofText?

/-- A number of elements, in parentheses. -/
def countText (n : Nat) (noun : String) : String :=
  "(" ++ Text.natText n ++ " " ++ noun ++ ")"

/-- The value as a cell of a table shows it. -/
def text : Stored → String
  | .string s => s
  | .number n => n
  | .binary bytes => countText bytes.length "bytes"
  | .strings xs => countText xs.length "items"
  | .numbers xs => countText xs.length "items"
  | .binaries xs => countText xs.length "items"
  | .bool b => if b then "true" else "false"
  | .null _ => "null"
  | .list xs => countText xs.length "items"
  | .map fields => countText fields.length "items"

mutual

/-- Two stored values are equal; numbers are compared as they are written. -/
def beq : Stored → Stored → Bool
  | .string a, .string b => a == b
  | .number a, .number b => a == b
  | .binary a, .binary b => a == b
  | .strings a, .strings b => a == b
  | .numbers a, .numbers b => a == b
  | .binaries a, .binaries b => a == b
  | .bool a, .bool b => a == b
  | .null a, .null b => a == b
  | .list as, .list bs => beqAll as bs
  | .map as, .map bs => beqFields as bs
  | _, _ => false

/-- Two lists of stored values are equal. -/
def beqAll : List Stored → List Stored → Bool
  | [], [] => true
  | a :: as, b :: bs => beq a b && beqAll as bs
  | _, _ => false

/-- Two lists of named stored values are equal. -/
def beqFields : List (String × Stored) → List (String × Stored) → Bool
  | [], [] => true
  | (k, a) :: as, (l, b) :: bs => k == l && beq a b && beqFields as bs
  | _, _ => false

end

mutual

/-- Two stored values are equal exactly if they are found equal. -/
theorem beq_iff_eq : ∀ {a b : Stored}, beq a b = true ↔ a = b
  | .string _, b | .number _, b | .binary _, b | .strings _, b | .numbers _, b | .binaries _, b
  | .bool _, b | .null _, b => by cases b <;> simp [beq]
  | .list as, b => by cases b <;> simp [beq, beqAll_iff_eq]
  | .map as, b => by cases b <;> simp [beq, beqFields_iff_eq]

/-- Lists of values that are found equal are equal. -/
theorem beqAll_iff_eq : ∀ {as bs : List Stored}, beqAll as bs = true ↔ as = bs
  | [], bs => by cases bs <;> simp [beqAll]
  | a :: as, bs => by cases bs <;> simp [beqAll, beq_iff_eq, beqAll_iff_eq]

/-- Fields that are found equal are equal. -/
theorem beqFields_iff_eq :
    ∀ {as bs : List (String × Stored)}, beqFields as bs = true ↔ as = bs
  | [], bs => by cases bs <;> simp [beqFields]
  | (k, a) :: as, bs => by
    cases bs <;> simp [beqFields, beq_iff_eq, beqFields_iff_eq, Prod.ext_iff]

end

instance : DecidableEq Stored := fun _ _ => decidable_of_iff _ beq_iff_eq

/-- The order of two stored values of one scalar type: strings and binaries by their bytes, numbers
by value. A numeral that writes no number has no order. -/
def compareScalar? : Stored → Stored → Option Ordering
  | .string a, .string b => some (compare a b)
  | .number a, .number b => do return (← Decimal.ofText? a).compare (← Decimal.ofText? b)
  | .binary a, .binary b => some (compare a b)
  | _, _ => none

end Stored

/-- An item of a table: its attributes. -/
abbrev Item := Fields Stored

end TableQuery
