import TableQuery.Config
import TableQuery.Schema.Basic
import TableQuery.Term.Eval

/-!
# Result sets

The rows that were read from a table, and what was done to them since: which are marked, which a
text filter hides, which are edited and not saved, and which are new.
-/

namespace TableQuery

/-- The flags of a row. -/
structure RowFlags where
  marked : Bool := false
  hidden : Bool := false
  dirty : Bool := false
  new : Bool := false
  deriving Repr, DecidableEq, Inhabited

/-- A row. -/
structure Row where
  item : Item
  flags : RowFlags := {}
  deriving Repr, DecidableEq

/-- What to do with a mark. -/
inductive MarkAction where
  | mark | unmark | toggle
  deriving Repr, DecidableEq

/-- The mark afterwards. -/
def MarkAction.apply : MarkAction → Bool → Bool
  | .mark, _ => true
  | .unmark, _ => false
  | .toggle, marked => !marked

/-- The row with its mark changed, unless it is hidden. -/
def Row.mark (action : MarkAction) (row : Row) : Row :=
  if row.flags.hidden then row
  else { row with flags.marked := action.apply row.flags.marked }

/-- The rows of a table. -/
structure ResultSet where
  schema : TableSchema
  /-- the expression that the rows were read by -/
  query : Option String := none
  rows : List Row := []
  readOnly : Bool := false
  deriving Repr

namespace ResultSet

/-- The set without rows. -/
def empty (schema : TableSchema) (config : Config) : ResultSet :=
  { schema, readOnly := config.readOnly }

/-- The set with other rows, none of them flagged. -/
def setItems (rs : ResultSet) (items : List Item) : ResultSet :=
  { rs with rows := items.map fun item => { item } }

/-- The set with the expression that its rows were read by. -/
def setQuery (rs : ResultSet) (query : Option String) : ResultSet :=
  { rs with query }

/-- Edits are refused. -/
def checkWritable (rs : ResultSet) : Except QueryError Unit :=
  if rs.readOnly then .error .readOnly else .ok ()

/-- The row of an index. -/
def row (rs : ResultSet) (index : Nat) : Except QueryError Row :=
  match rs.rows[index]? with
  | some row => .ok row
  | none => .error (.noRow index)

/-- The set with another row at an index. -/
def setRow (rs : ResultSet) (index : Nat) (row : Row) : ResultSet :=
  { rs with rows := rs.rows.set index row }

/-- The set with a new row behind the others, and its index. -/
def add (rs : ResultSet) (item : Item) : Except QueryError (ResultSet × Nat) := do
  rs.checkWritable
  let row : Row := { item, flags := { dirty := true, new := true } }
  return ({ rs with rows := rs.rows ++ [row] }, rs.rows.length)

/-- The indexes of the rows that have a property. -/
def indexesOf (rs : ResultSet) (p : Row → Bool) : List Nat :=
  (rs.rows.zipIdx.filter fun (row, _) => p row).map Prod.snd

/-- The indexes of the rows that are not hidden. -/
def visible (rs : ResultSet) : List Nat :=
  rs.indexesOf fun row => !row.flags.hidden

/-- The indexes of the rows with edits that are not saved. -/
def dirty (rs : ResultSet) : List Nat :=
  rs.indexesOf fun row => row.flags.dirty

/-- The set with the marks of some rows changed. It stops at an index without a row, and the marks
changed before stay changed. -/
def mark (action : MarkAction) : ResultSet → List Nat → ResultSet × Except QueryError Unit
  | rs, [] => (rs, .ok ())
  | rs, index :: rest =>
    match rs.row index with
    | .ok row => mark action (rs.setRow index (row.mark action)) rest
    | .error e => (rs, .error e)

/-- The set with the marks of all visible rows changed. -/
def markVisible (rs : ResultSet) (action : MarkAction) : ResultSet :=
  { rs with rows := rs.rows.map (Row.mark action) }

/-- The set without marks. -/
def unmarkAll (rs : ResultSet) : ResultSet :=
  { rs with rows := rs.rows.map fun row => { row with flags.marked := false } }

/-- A text occurs in another. -/
def occursIn (text : List Char) : List Char → Bool
  | [] => text.isEmpty
  | c :: rest => text.isPrefixOf (c :: rest) || occursIn text rest

/-- The set with the rows hidden in which no cell contains a text. -/
def filterByText (rs : ResultSet) (text : String) : ResultSet :=
  let shows (item : Item) := text = "" || item.any fun (_, v) => occursIn text.toList v.text.toList
  { rs with rows := rs.rows.map fun row => { row with flags.hidden := !shows row.item } }

/-- The indexes of the visible rows among `rows`, numbered from `index` on, of which a term is
true. -/
def matchingFrom (env : Environment) (t : Term) (index : Nat) :
    List Row → Except QueryError (List Nat)
  | [] => .ok []
  | row :: rest =>
    if row.flags.hidden then matchingFrom env t (index + 1) rest
    else do
      let hit ← t.holds env row.item
      let more ← matchingFrom env t (index + 1) rest
      return if hit then index :: more else more

/-- The indexes of the visible rows of which a term is true. -/
def matching (rs : ResultSet) (env : Environment) (t : Term) : Except QueryError (List Nat) :=
  matchingFrom env t 0 rs.rows

/-- The environment in which this set is the current one. -/
def environment (rs : ResultSet) (env : Environment) : Environment :=
  { env with rows := some (rs.rows.map fun row => (row.item, row.flags.marked)) }

/-- The set with the rows marked of which a term is true, and their number. -/
def markMatching (rs : ResultSet) (env : Environment) (t : Term) :
    Except QueryError (ResultSet × Nat) := do
  let hits ← rs.matching (rs.environment env) t
  let rows := rs.rows.zipIdx.map fun (row, i) =>
    if hits.contains i then { row with flags.marked := true } else row
  return ({ rs with rows }, hits.length)

/-- The order of two keys that may be missing: a missing one comes last, and keys that cannot be
compared are equal. -/
def compareKey : Option Stored → Option Stored → Ordering
  | some a, some b => (a.compareScalar? b).getD .eq
  | some _, none => .lt
  | none, some _ => .gt
  | none, none => .eq

/-- The order of two items by the keys of a table. -/
def compareItems (keys : KeySchema) (a b : Item) : Ordering :=
  let order (name : String) := compareKey (Fields.get? name a) (Fields.get? name b)
  (order keys.partitionKey.name).then (keys.sortKey.elim .eq fun key => order key.name)

/-- The set with its rows in the order of their keys; equal rows keep their order. -/
def sort (rs : ResultSet) : ResultSet :=
  { rs with rows := rs.rows.mergeSort fun a b =>
      compareItems rs.schema.primary a.item b.item != .gt }

/-- The set with a value written into a row. A write that fails may leave maps on its way. -/
def setValue (rs : ResultSet) (index : Nat) (path : Path) (value : Stored) :
    ResultSet × Except QueryError Unit :=
  match (do rs.checkWritable; rs.row index) with
  | .error e => (rs, .error e)
  | .ok row =>
    match row.item.set path value with
    | (item, .ok ()) => (rs.setRow index { row with item, flags.dirty := true }, .ok ())
    | (item, .error e) => (rs.setRow index { row with item }, .error e)

/-- The set with a value removed from a row, and that value. -/
def delete (rs : ResultSet) (index : Nat) (path : Path) :
    Except QueryError (ResultSet × Stored) := do
  rs.checkWritable
  let row ← rs.row index
  let (removed, item) ← row.item.remove path
  return (rs.setRow index { row with item, flags.dirty := true }, removed)

/-- The set with a row saved. -/
def clearDirty (rs : ResultSet) (index : Nat) : Except QueryError ResultSet := do
  let row ← rs.row index
  return rs.setRow index { row with flags.dirty := false, flags.new := false }

end ResultSet

end TableQuery
