import TableQuery.Json.Decode

/-!
# Records as JSON

A record is an object of its fields, or an array of them in order. Members that are no fields are
passed over.
-/

namespace TableQuery.Json

/-- The parts are followed by all that belongs to the array or object; what `isRead` also has a
name that writes a text in front of each part. -/
def Ending.isWhole (isRead : Bool) : Ending → Bool
  | .closed => true
  | .unnamed => !isRead
  | .cut => false

mutual

/-- The text of the tree stops nowhere being JSON; in what `isRead`, all names and strings also
write texts, and no number is too large. -/
def isWhole (isRead : Bool) : Json → Bool
  | .null | .bool _ | .string _ => true
  | .number n => !isRead || !(Numeric.ofNumeral n).isTooLarge
  | .garbled => !isRead
  | .array elements ending => ending.isWhole isRead && areWhole isRead elements
  | .object members ending => ending.isWhole isRead && membersAreWhole isRead members
  | .misnamed _ | .cut => false

/-- All trees of a list are whole. -/
def areWhole (isRead : Bool) : List Json → Bool
  | [] => true
  | j :: rest => j.isWhole isRead && areWhole isRead rest

/-- The values of all members are whole. -/
def membersAreWhole (isRead : Bool) : List (String × Json) → Bool
  | [] => true
  | (_, j) :: rest => j.isWhole isRead && membersAreWhole isRead rest

end

/-- A value that nobody asks for is still JSON, but what is in it is not read. -/
def passOver (j : Json) : Decoded Unit :=
  if j.isWhole false then .ok () else .error malformed

/-- A value that is read before it is known what it should be. -/
def readAhead (j : Json) : Decoded Unit :=
  if j.isWhole true then .ok () else .error malformed

/-- A field of records that are read into drafts of type `δ`. -/
structure RecordField (δ : Type) where
  name : String
  /-- the record can do without the field -/
  optional : Bool
  /-- the draft has the field -/
  isSet : δ → Bool
  /-- reads the field into the draft -/
  read : δ → Json → Decoded δ

variable {δ : Type}

/-- A field that a record cannot do without. -/
def required {α : Type} (name : String) : Option α → Decoded α
  | some a => .ok a
  | none => .error ⟨.missingField name, .close, []⟩

/-- Reads the members of an object into a draft; no field comes twice. -/
def readMembers (fields : List (RecordField δ)) (draft : δ) : List (String × Json) → Decoded δ
  | [] => .ok draft
  | (k, j) :: rest =>
    match fields.find? fun f => f.name == k with
    | none => do
      passOver j
      later (readMembers fields draft rest)
    | some f => do
      let draft ← first (if f.isSet draft then .error ⟨.duplicateField k, .colon, []⟩
        else f.read draft j)
      later (readMembers fields draft rest)

/-- Reads the elements of an array into a draft, one for each field; `n` fields are read. -/
def readElements (expected : String) (ending : Ending) (n : Nat) (draft : δ) :
    List (RecordField δ) → List Json → Decoded δ
  | [], [] => do
    atEnd ending
    return draft
  | [], _ :: _ => .error malformed
  | f :: fields, [] => do
    atEnd ending
    if f.optional then readElements expected ending (n + 1) draft fields []
    else .error ⟨.wrongLength n expected, .close, []⟩
  | f :: fields, j :: rest => do
    let draft ← first (f.read draft j)
    later (readElements expected ending (n + 1) draft fields rest)

/-- Reads a record of a kind into a draft. -/
def readRecord (kind : String) (fields : List (RecordField δ)) (draft : δ) : Json → Decoded δ
  | .object members ending => do
    let draft ← readMembers fields draft members
    atEnd ending
    return draft
  | .array elements ending =>
    let noun := if fields.length = 1 then " element" else " elements"
    let expected := "struct " ++ kind ++ " with " ++ Text.natText fields.length ++ noun
    readElements expected ending 0 draft fields elements
  | .misnamed _ => .error malformed
  | j => .error (j.mismatch ("struct " ++ kind))

end TableQuery.Json
