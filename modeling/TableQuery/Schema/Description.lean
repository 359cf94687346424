import TableQuery.Schema.Basic

/-!
# Table descriptions

The description of a table, and the schema that it resolves to. In the description keys are names,
and the types of all attributes are listed apart from them.
-/

namespace TableQuery

/-- What a key attribute is for. -/
inductive KeyRole where
  | partition | sort
  deriving Repr, DecidableEq, Inhabited

/-- How a description writes a role. -/
def KeyRole.text : KeyRole → String
  | .partition => "HASH"
  | .sort => "RANGE"

/-- A key attribute with its role. -/
structure KeyElement where
  name : String
  role : KeyRole
  deriving Repr, DecidableEq

/-- An attribute with its type. -/
structure AttributeDefinition where
  name : String
  type : ScalarType
  deriving Repr, DecidableEq

/-- A secondary index with its keys. -/
structure IndexDescription where
  name : String
  keys : List KeyElement
  deriving Repr, DecidableEq

/-- A table with its keys, its attribute types and its secondary indexes. -/
structure TableDescription where
  table : String
  keys : List KeyElement
  definitions : List AttributeDefinition
  globalIndexes : List IndexDescription
  localIndexes : List IndexDescription
  deriving Repr, DecidableEq

/-- Why a description has no schema. -/
inductive SchemaError where
  /-- no key of the table or index `owner` is the partition key -/
  | missingPartitionKey (owner : String)
  /-- no type is listed for a key attribute -/
  | undefinedKey (name : String)
  /-- the type of a key attribute is none that a key can have -/
  | invalidKeyType (name type : String)
  deriving Repr, DecidableEq

/-- The message of a schema error. -/
def SchemaError.message : SchemaError → String
  | .missingPartitionKey owner => owner ++ ": key schema has no partition key"
  | .undefinedKey name => name ++ ": key attribute has no attribute definition"
  | .invalidKeyType name type =>
    name ++ ": invalid key attribute type '" ++ type ++ "'"

namespace TableDescription

/-- A key attribute with the type that is listed for it first. -/
def resolveKey (definitions : List AttributeDefinition) (name : String) :
    Except SchemaError KeyAttribute :=
  match definitions.find? fun d => d.name == name with
  | none => .error (.undefinedKey name)
  | some d =>
    match d.type with
    | .other type => .error (.invalidKeyType name type)
    | type => .ok ⟨name, type⟩

/-- The first key of each role, resolved; the partition key has to be there. -/
def resolveKeys (definitions : List AttributeDefinition) (owner : String)
    (elements : List KeyElement) : Except SchemaError KeySchema := do
  let some partition := elements.find? fun e => e.role == .partition
    | .error (.missingPartitionKey owner)
  let partitionKey ← resolveKey definitions partition.name
  match elements.find? fun e => e.role == .sort with
  | none => return ⟨partitionKey, none⟩
  | some sort => return ⟨partitionKey, some (← resolveKey definitions sort.name)⟩

/-- The schema of a described table: its global indexes before its local ones. -/
def resolve (d : TableDescription) : Except SchemaError TableSchema := do
  let primary ← resolveKeys d.definitions d.table d.keys
  let indexes ← (d.globalIndexes ++ d.localIndexes).mapM fun index => do
    return IndexSchema.mk index.name (← resolveKeys d.definitions index.name index.keys)
  return ⟨d.table, primary, indexes⟩

end TableDescription

end TableQuery
