import TableQuery.Json.Document
import TableQuery.Stored.Basic
import TableQuery.Text.Base64

/-!
# Stored values as JSON

A stored value is an object with one member: the short name of its type, and its contents. Binary
data is base64.
-/

namespace TableQuery.Stored

mutual

/-- The JSON of a stored value. -/
def toJson (v : Stored) : Json :=
  .ofMembers [(v.tag.text, contents v)]

/-- The JSON of what a stored value holds. -/
def contents : Stored → Json
  | .string s => .string s
  | .number n => .string n
  | .binary bytes => .string (Text.Base64.encode bytes)
  | .strings xs => .ofElements (xs.map .string)
  | .numbers xs => .ofElements (xs.map .string)
  | .binaries xs => .ofElements (xs.map fun bytes => .string (Text.Base64.encode bytes))
  | .bool b => .bool b
  | .null b => .bool b
  | .list xs => .ofElements (elementsJson xs)
  | .map fields => .ofMembers (fieldsJson fields)

/-- The JSON of the elements of a list. -/
def elementsJson : List Stored → List Json
  | [] => []
  | v :: rest => .ofMembers [(v.tag.text, contents v)] :: elementsJson rest

/-- The JSON of the fields of a map. -/
def fieldsJson : List (String × Stored) → List (String × Json)
  | [] => []
  | (k, v) :: rest => (k, .ofMembers [(v.tag.text, contents v)]) :: fieldsJson rest

end

/-- What a stored value should be, as error messages say it. -/
def expectedText : String :=
  "an object with exactly one type tag"

open Json (Decoded asString asBool asList atEnd first later malformed)

/-- The bytes of a base64 text. -/
def binaryOfText (text : String) : Decoded (List UInt8) :=
  match Text.Base64.decode? text with
  | some bytes => .ok bytes
  | none => .error ⟨.badBase64 (Text.Base64.flaw text), .parent, []⟩

mutual

/-- The stored value of a JSON tree. -/
def ofJson : Json → Decoded Stored
  | .object [] ending => do
    atEnd ending
    .error ⟨.wrongLength 0 expectedText, .close, []⟩
  | .object ((tag, j) :: rest) ending => do
    let v ← first (ofContents tag j)
    if rest.isEmpty then
      atEnd ending
      return v
    else .error ⟨.wrongLength 2 expectedText, .colon, [1]⟩
  | .misnamed _ => .error malformed
  | j => .error (j.mismatch expectedText)

/-- The stored value of a type name and the JSON of its contents. -/
def ofContents (tag : String) (j : Json) : Decoded Stored :=
  match TypeTag.ofText? tag with
  | some .string => (asString j).map .string
  | some .number => (asString j).map .number
  | some .binary => do return .binary (← binaryOfText (← asString j))
  | some .strings => (asList asString j).map .strings
  | some .numbers => (asList asString j).map .numbers
  | some .binaries => do return .binaries (← (← asList asString j).mapM binaryOfText)
  | some .bool => (asBool j).map .bool
  | some .null => (asBool j).map .null
  | some .list =>
    match j with
    | .array elements ending => do
      let values ← ofElements elements
      atEnd ending
      return .list values
    | j => .error (j.mismatch "a sequence")
  | some .map =>
    match j with
    | .object members ending => do
      let fields ← ofMembers [] members
      atEnd ending
      return .map fields
    | .misnamed _ => .error malformed
    | j => .error (j.mismatch "a map")
  | none => .error ⟨.unknownField tag (TypeTag.all.map TypeTag.text), .colon, []⟩

/-- The stored values of the elements of an array. -/
def ofElements : List Json → Decoded (List Stored)
  | [] => .ok []
  | j :: rest => do
    let v ← first (ofJson j)
    let more ← later (ofElements rest)
    return v :: more

/-- The fields that the members of an object add to `fields`; of members with one name, the last
counts. -/
def ofMembers (fields : Fields Stored) : List (String × Json) → Decoded (Fields Stored)
  | [] => .ok fields
  | (k, j) :: rest => do
    let v ← first (ofJson j)
    later (ofMembers (fields.insert k v) rest)

end

/-- The stored value of a document. -/
def ofText (text : String) : Decoded Stored :=
  Json.ofDocument ofJson Json.maxDepth text

end Stored

/-- The JSON of an item. -/
def Item.toJson (item : Item) : Json :=
  .ofMembers (Stored.fieldsJson item)

/-- The item of a JSON tree. -/
def Item.ofJson : Json → Json.Decoded Item
  | .object members ending => do
    let fields ← Stored.ofMembers [] members
    Json.atEnd ending
    return fields
  | .misnamed _ => .error Json.malformed
  | j => .error (j.mismatch "a map")

/-- The item of a document. -/
def Item.ofText (text : String) : Json.Decoded Item :=
  Json.ofDocument Item.ofJson Json.maxDepth text

end TableQuery
