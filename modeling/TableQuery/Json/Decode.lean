import TableQuery.Json.Basic
import TableQuery.Json.Number
import TableQuery.Text.Base64
import TableQuery.Text.Escaped

/-!
# Decoding JSON

Taking JSON trees for the values that they should be. A tree is taken apart in the order of its
text, and the first part that is not what it should be is the error.
-/

namespace TableQuery.Json

/-- Why a tree is not what it should be. -/
inductive DecodeError where
  /-- the text is no JSON at this place -/
  | malformed
  /-- a text of binary data is not base64 -/
  | badBase64 (flaw : Text.Base64.Flaw)
  | wrongType (found : String) (expected : String)
  | wrongLength (length : Nat) (expected : String)
  | unknownField (name : String) (known : List String)
  | unknownVariant (name : String) (known : List String)
  | missingField (name : String)
  | duplicateField (name : String)
  deriving Repr, DecidableEq

/-- Where an error is found while one part of a tree is read. -/
inductive Side where
  /-- behind the name of the part -/
  | name
  /-- where the colon behind the name of the part should be, or behind a brace that is there -/
  | colon
  /-- behind a value, or in front of it if it is an array or object -/
  | value
  /-- behind the value -/
  | close
  /-- behind the value and what closes the object that it is in, if that follows -/
  | parent
  deriving Repr, DecidableEq

/-- An error and where it is: the numbers of the parts that lead to the part in which it is. -/
structure Fault where
  cause : DecodeError
  side : Side
  path : List Nat := []
  deriving Repr, DecidableEq

/-- A fault in the first part of something. -/
def Fault.inFirst (f : Fault) : Fault :=
  { f with path := 0 :: f.path }

/-- A fault in the parts after the first one. -/
def Fault.inRest (f : Fault) : Fault :=
  match f.path with
  | i :: path => { f with path := (i + 1) :: path }
  | [] => f

/-- What is decoded, or the fault that it has. -/
abbrev Decoded (α : Type) := Except Fault α

variable {α : Type}

/-- What is decoded from the first part of something. -/
def first (r : Decoded α) : Decoded α :=
  r.mapError Fault.inFirst

/-- What is decoded from the parts after the first one. -/
def later (r : Decoded α) : Decoded α :=
  r.mapError Fault.inRest

/-- Names in backquotes, of which one is meant. -/
def oneOf (names : List String) : String :=
  let quoted := names.map fun name => "`" ++ name ++ "`"
  match quoted with
  | [a, b] => a ++ " or " ++ b
  | [a] => a
  | _ => "one of " ++ ", ".intercalate quoted

/-- The message of a decoding error. -/
def DecodeError.message : DecodeError → String
  | .malformed => "malformed JSON"
  | .badBase64 flaw => flaw.message
  | .wrongType found expected => "invalid type: " ++ found ++ ", expected " ++ expected
  | .wrongLength n expected =>
    "invalid length " ++ Text.natText n ++ ", expected " ++ expected
  | .unknownField name known => "unknown field `" ++ name ++ "`, expected " ++ oneOf known
  | .unknownVariant name known => "unknown variant `" ++ name ++ "`, expected " ++ oneOf known
  | .missingField name => "missing field `" ++ name ++ "`"
  | .duplicateField name => "duplicate field `" ++ name ++ "`"

/-- What a tree is, as error messages name it; nothing where it cannot be read. -/
def kindText? : Json → Option String
  | .null => some "null"
  | .bool b => some ("boolean `" ++ (if b then "true" else "false") ++ "`")
  | .number n =>
    match Numeric.ofNumeral n with
    | .integer i => some ("integer `" ++ Text.intText i ++ "`")
    | .double x => some ("floating point `" ++ Numeric.doubleText x ++ "`")
    | .tooLarge => none
  | .string s => some ("string " ++ Text.escaped s)
  | .array .. => some "sequence"
  | .object .. | .misnamed _ => some "map"
  | .garbled | .cut => none

/-- The fault of a text that is no JSON, or has a number or a string that cannot be read. -/
def malformed : Fault :=
  ⟨.malformed, .close, []⟩

/-- The fault of a tree that should be something else. -/
def mismatch (j : Json) (expected : String) : Fault :=
  match j.kindText? with
  | some found => ⟨.wrongType found expected, .value, []⟩
  | none => malformed

/-- A text. -/
def asString : Json → Decoded String
  | .string s => .ok s
  | j => .error (j.mismatch "a string")

/-- A truth value. -/
def asBool : Json → Decoded Bool
  | .bool b => .ok b
  | j => .error (j.mismatch "a boolean")

/-- The end of an array or object. -/
def atEnd : Ending → Decoded Unit
  | .closed => .ok ()
  | .unnamed | .cut => .error malformed

/-- The things that `decode` takes from some elements. -/
def decodeAll (decode : Json → Decoded α) : List Json → Decoded (List α)
  | [] => .ok []
  | j :: rest => do
    let a ← first (decode j)
    let more ← later (decodeAll decode rest)
    return a :: more

/-- An array of things that `decode` takes. -/
def asList (decode : Json → Decoded α) : Json → Decoded (List α)
  | .array elements ending => do
    let values ← decodeAll decode elements
    atEnd ending
    return values
  | j => .error (j.mismatch "a sequence")

end TableQuery.Json
