import TableQuery.Stored.Basic

/-!
# Table schemas

The keys of a table and of its secondary indexes: attributes with a scalar type, of which the
partition key finds the rows and the sort key orders them.
-/

namespace TableQuery

/-- The type of a key attribute. -/
inductive ScalarType where
  | string | number | binary
  /-- a type that no key can have -/
  | other (name : String)
  deriving Repr, DecidableEq, Inhabited

namespace ScalarType

/-- The short name of a scalar type. -/
def text : ScalarType → String
  | .string => "S"
  | .number => "N"
  | .binary => "B"
  | .other name => name

/-- The scalar type of a short name. -/
def ofText (text : String) : ScalarType :=
  if text = "S" then .string
  else if text = "N" then .number
  else if text = "B" then .binary
  else .other text

/-- A stored value has the scalar type. -/
def accepts : ScalarType → Stored → Bool
  | .string, .string _ => true
  | .number, .number _ => true
  | .binary, .binary _ => true
  | _, _ => false

end ScalarType

/-- A key attribute. -/
structure KeyAttribute where
  name : String
  type : ScalarType
  deriving Repr, DecidableEq, Inhabited

/-- The keys of a table or of an index. -/
structure KeySchema where
  partitionKey : KeyAttribute
  sortKey : Option KeyAttribute := none
  deriving Repr, DecidableEq, Inhabited

/-- An attribute is one of the keys. -/
def KeySchema.hasKey (keys : KeySchema) (name : String) : Bool :=
  keys.partitionKey.name == name || keys.sortKey.any fun key => key.name == name

/-- A secondary index. -/
structure IndexSchema where
  name : String
  keys : KeySchema
  deriving Repr, DecidableEq, Inhabited

/-- The keys of a table and its secondary indexes in the order of their declaration. -/
structure TableSchema where
  table : String
  primary : KeySchema
  indexes : List IndexSchema := []
  deriving Repr, DecidableEq, Inhabited

namespace TableSchema

/-- The keys of the table, and then those of each index with its name. -/
def keySchemas (schema : TableSchema) : List (Option String × KeySchema) :=
  (none, schema.primary) :: schema.indexes.map fun index => (some index.name, index.keys)

/-- An attribute is a key of the table or of an index. -/
def isKey (schema : TableSchema) (name : String) : Bool :=
  schema.keySchemas.any fun (_, keys) => keys.hasKey name

/-- The schema for expressions about no table: no expression can name its key. -/
def detached : TableSchema :=
  ⟨"", ⟨⟨"", .string⟩, none⟩, []⟩

end TableSchema

end TableQuery
