import TableQuery.Csv
import TableQuery.Expr.Token
import TableQuery.Term.Basic

/-!
# Errors

Everything that can go wrong between the text of an expression and its result. An error holds its
cause, and one function says how each cause reads.
-/

namespace TableQuery

/-- What a value or a term cannot be used for. -/
inductive Unsupported where
  | conversion (cause : ConversionError)
  | size (v : Value)
  | addition (left right : Value)
  | subtraction (left right : Value)
  | negation (v : Value)
  /-- an argument of a function is a number beyond the machine integers -/
  | outOfRange (f : Builtin)
  /-- a range of more elements than a range may have -/
  | longRange
  /-- a term that should be true or false has another value -/
  | notBoolean (t : Term) (v : Value)
  | condition (t : Term)
  | operand (t : Term)
  /-- an index of a path is applied to something that is not a list -/
  | indexing (path : Path)
  deriving Repr

/-- The most elements of a range. -/
def maxRangeLength : Nat := 100000

/-- The message of a conversion error. -/
def ConversionError.message : ConversionError → String
  | .invalidNumber numeral => "invalid stored number '" ++ numeral ++ "'"
  | .falseNull => "stored NULL value must be true"

/-- What is unsupported, as error messages say it. -/
def Unsupported.message : Unsupported → String
  | .conversion cause => cause.message
  | .size v => "cannot take size of '" ++ v.text ++ "'"
  | .addition a b => "cannot add '" ++ a.text ++ "' and '" ++ b.text ++ "'"
  | .subtraction a b => "cannot subtract '" ++ b.text ++ "' from '" ++ a.text ++ "'"
  | .negation v => "cannot negate '" ++ v.text ++ "'"
  | .outOfRange f => f.name ++ "(): number is out of range"
  | .longRange => "range(): more than " ++ Text.natText maxRangeLength ++ " elements"
  | .notBoolean t v =>
    "expression '" ++ t.text ++ "' evaluated to '" ++ v.text ++ "', not a boolean"
  | .condition t => "'" ++ t.text ++ "' cannot be used as a store condition"
  | .operand t => "'" ++ t.text ++ "' has no store equivalent"
  | .indexing path => "'" ++ path.text ++ "' indexes a value that is not a list"

/-- An error of a query. -/
inductive QueryError where
  | malformed (cause : SyntaxError)
  | nameNotFound (path : Path)
  /-- a key of a path is applied to something that is not a map -/
  | notAMap (path : Path)
  | notComparable (left right : Value)
  /-- the value cannot be read as text -/
  | noText (v : Value)
  /-- an element of a set is no value -/
  | noElement (v : Value) (index : Nat)
  /-- what a type test tests is no path -/
  | operandNotAName (e : Expr)
  /-- the type of a type test is no literal -/
  | typeNotALiteral (e : Expr)
  /-- the type of a type test is no string -/
  | typeNotAString (e : Expr)
  | unknownType (name : String)
  | argumentCount (f : Builtin) (expected actual : Nat)
  | argumentType (f : Builtin) (index : Nat) (expected : TypeTag)
  | unknownFunction (name : String)
  /-- the header of a file lacks a name -/
  | noColumn (name : String)
  /-- an attribute of a marked row has no value -/
  | markedItem (row : Nat) (name : String) (cause : ConversionError)
  | unsupported (what : Unsupported)
  | readOnly
  | noRow (index : Nat)
  | file (cause : FileError)
  | csv (cause : Csv.Error)
  deriving Repr

/-- What is unsupported, as an error of its own. -/
def Unsupported.fullMessage (what : Unsupported) : String :=
  "unsupported operation: " ++ what.message

/-- The message of an error. -/
def QueryError.message : QueryError → String
  | .malformed cause => cause.message
  | .nameNotFound path => path.text ++ ": name not found"
  | .notAMap path => path.text ++ ": name is not a map"
  | .notComparable a b =>
    "values '" ++ a.text ++ "' and '" ++ b.text ++ "' are not comparable"
  | .noText v => "value '" ++ v.text ++ "' is not convertible to string"
  | .noElement v index =>
    "value '" ++ v.text ++ "[" ++ Text.natText index ++ "]' is not convertible to string"
  | .operandNotAName e => e.text ++ ": operand is not a name"
  | .typeNotALiteral e => e.text ++ ": value must be a literal"
  | .typeNotAString e => e.text ++ ": value must be a string"
  | .unknownType name => "invalid type for 'is': " ++ name
  | .argumentCount f expected actual =>
    "function '" ++ f.name ++ "' expected " ++ Text.natText expected ++ " args but received "
      ++ Text.natText actual
  | .argumentType f index expected =>
    "function '" ++ f.name ++ "' expected arg " ++ Text.natText index ++ " to be of type "
      ++ expected.text
  | .unknownFunction name => name ++ ": unknown function"
  | .noColumn name => name ++ ": csv header not found"
  | .markedItem row name cause =>
    "marked(): item " ++ Text.natText row ++ ", attr " ++ name ++ ": "
      ++ (Unsupported.conversion cause).fullMessage
  | .unsupported what => what.fullMessage
  | .readOnly => "result set is read-only"
  | .noRow index => "row " ++ Text.natText index ++ " is out of range"
  | .file cause => cause.message
  | .csv cause => cause.message

/-- The value of a stored value, or the error that it has none. -/
def Value.read (v : Stored) : Except QueryError Value :=
  (Value.ofStored v).mapError fun cause => .unsupported (.conversion cause)

end TableQuery
