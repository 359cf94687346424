import TableQuery.Json.Document
import TableQuery.Json.Record
import TableQuery.Schema.Description

/-!
# Table descriptions as JSON

The document that describes a table. Lists that it does not have are empty.
-/

namespace TableQuery

open Json (Decoded RecordField asString asList first malformed readRecord required)

/-- The role of a name, which stands at a side of a part. -/
def KeyRole.ofName (side : Json.Side) (name : String) : Decoded KeyRole :=
  if name = KeyRole.partition.text then .ok .partition
  else if name = KeyRole.sort.text then .ok .sort
  else .error ⟨.unknownVariant name [KeyRole.partition.text, KeyRole.sort.text], side, []⟩

/-- The role of a key, by its name alone or as an object of its name with null. -/
def KeyRole.ofJson : Json → Decoded KeyRole
  | .string s => ofName .value s
  | .object ((name, j) :: rest) ending => do
    let role ← first (ofName .name name)
    match j with
    | .null => if rest.isEmpty && ending == .closed then return role else .error malformed
    | j => first (.error (j.mismatch "unit"))
  | .misnamed j => first (.error (j.mismatch "variant identifier"))
  | _ => .error malformed

/-- A key element while it is read. -/
structure KeyElement.Draft where
  name : Option String := none
  role : Option KeyRole := none

/-- The fields of a key element. -/
def KeyElement.fields : List (RecordField Draft) :=
  [⟨"AttributeName", false, fun d => d.name.isSome, fun d j => do
      return { d with name := some (← asString j) }⟩,
   ⟨"KeyType", false, fun d => d.role.isSome, fun d j => do
      return { d with role := some (← KeyRole.ofJson j) }⟩]

/-- The key element of a JSON tree. -/
def KeyElement.ofJson (j : Json) : Decoded KeyElement := do
  let d ← readRecord "KeySchemaElement" fields {} j
  return ⟨← required "AttributeName" d.name, ← required "KeyType" d.role⟩

/-- The JSON of a key element. -/
def KeyElement.toJson (e : KeyElement) : Json :=
  .ofMembers [("AttributeName", .string e.name), ("KeyType", .string e.role.text)]

/-- An attribute definition while it is read. -/
structure AttributeDefinition.Draft where
  name : Option String := none
  type : Option ScalarType := none

/-- The fields of an attribute definition. -/
def AttributeDefinition.fields : List (RecordField Draft) :=
  [⟨"AttributeName", false, fun d => d.name.isSome, fun d j => do
      return { d with name := some (← asString j) }⟩,
   ⟨"AttributeType", false, fun d => d.type.isSome, fun d j => do
      return { d with type := some (.ofText (← asString j)) }⟩]

/-- The attribute definition of a JSON tree. -/
def AttributeDefinition.ofJson (j : Json) : Decoded AttributeDefinition := do
  let d ← readRecord "AttributeDefinition" fields {} j
  return ⟨← required "AttributeName" d.name, ← required "AttributeType" d.type⟩

/-- The JSON of an attribute definition. -/
def AttributeDefinition.toJson (d : AttributeDefinition) : Json :=
  .ofMembers [("AttributeName", .string d.name), ("AttributeType", .string d.type.text)]

/-- An index description while it is read. -/
structure IndexDescription.Draft where
  name : Option String := none
  keys : Option (List KeyElement) := none

/-- The fields of an index description. -/
def IndexDescription.fields : List (RecordField Draft) :=
  [⟨"IndexName", false, fun d => d.name.isSome, fun d j => do
      return { d with name := some (← asString j) }⟩,
   ⟨"KeySchema", false, fun d => d.keys.isSome, fun d j => do
      return { d with keys := some (← asList KeyElement.ofJson j) }⟩]

/-- The index description of a JSON tree. -/
def IndexDescription.ofJson (j : Json) : Decoded IndexDescription := do
  let d ← readRecord "SecondaryIndexDescription" fields {} j
  return ⟨← required "IndexName" d.name, ← required "KeySchema" d.keys⟩

/-- The JSON of an index description. -/
def IndexDescription.toJson (d : IndexDescription) : Json :=
  .ofMembers [("IndexName", .string d.name),
    ("KeySchema", .ofElements (d.keys.map KeyElement.toJson))]

/-- A table description while it is read. -/
structure TableDescription.Draft where
  table : Option String := none
  keys : Option (List KeyElement) := none
  definitions : Option (List AttributeDefinition) := none
  globalIndexes : Option (List IndexDescription) := none
  localIndexes : Option (List IndexDescription) := none

/-- The fields of a table description. -/
def TableDescription.fields : List (RecordField Draft) :=
  [⟨"TableName", false, fun d => d.table.isSome, fun d j => do
      return { d with table := some (← asString j) }⟩,
   ⟨"KeySchema", false, fun d => d.keys.isSome, fun d j => do
      return { d with keys := some (← asList KeyElement.ofJson j) }⟩,
   ⟨"AttributeDefinitions", true, fun d => d.definitions.isSome, fun d j => do
      return { d with definitions := some (← asList AttributeDefinition.ofJson j) }⟩,
   ⟨"GlobalSecondaryIndexes", true, fun d => d.globalIndexes.isSome, fun d j => do
      return { d with globalIndexes := some (← asList IndexDescription.ofJson j) }⟩,
   ⟨"LocalSecondaryIndexes", true, fun d => d.localIndexes.isSome, fun d j => do
      return { d with localIndexes := some (← asList IndexDescription.ofJson j) }⟩]

/-- The table description of a JSON tree. -/
def TableDescription.ofJson (j : Json) : Decoded TableDescription := do
  let d ← readRecord "TableDescription" fields {} j
  return ⟨← required "TableName" d.table, ← required "KeySchema" d.keys,
    d.definitions.getD [], d.globalIndexes.getD [], d.localIndexes.getD []⟩

/-- The JSON of a table description. -/
def TableDescription.toJson (d : TableDescription) : Json :=
  .ofMembers [("TableName", .string d.table),
    ("KeySchema", .ofElements (d.keys.map KeyElement.toJson)),
    ("AttributeDefinitions", .ofElements (d.definitions.map AttributeDefinition.toJson)),
    ("GlobalSecondaryIndexes", .ofElements (d.globalIndexes.map IndexDescription.toJson)),
    ("LocalSecondaryIndexes", .ofElements (d.localIndexes.map IndexDescription.toJson))]

/-- The fields of the document around a table description. -/
def TableDescription.documentFields : List (RecordField (Option TableDescription)) :=
  [⟨"Table", false, Option.isSome, fun _ j => do return some (← TableDescription.ofJson j)⟩]

/-- The table description of a document. -/
def TableDescription.ofDocument (j : Json) : Decoded TableDescription := do
  let d ← readRecord "DescribeTableOutput" documentFields none j
  required "Table" d

/-- The table description of a document, of which no part is too deep. -/
def TableDescription.ofText (text : String) : Decoded TableDescription :=
  Json.ofDocument ofDocument text.length text

/-- The document of a table description. -/
def TableDescription.toDocument (d : TableDescription) : Json :=
  .ofMembers [("Table", d.toJson)]

end TableQuery
