import TableQuery.Expr.Parser
import TableQuery.Native.Builder
import TableQuery.Term.Lower

/-!
# Plans

A plan splits an expression into a condition on the keys of one index and a filter for all else. The
terms joined by `and` are looked through for one that fixes the partition key of the table, or else
of its indexes in order; the first that does decides. One more term may bound the sort key of the
same index. All other terms make up the filter in their order, so that a row passes the plan if it
passes the expression.
-/

namespace TableQuery

/-- A bound on a sort key. -/
inductive SortCondition where
  | eq (bound : Stored)
  | lt (bound : Stored)
  | le (bound : Stored)
  | gt (bound : Stored)
  | ge (bound : Stored)
  | beginsWith (start : String)
  deriving Repr, DecidableEq

namespace SortCondition

/-- The bound that a comparison with a constant is, if it is one. -/
def ofTerm? (op : Comparison) (v : Stored) : Option SortCondition :=
  match op, v with
  | .eq, v => some (.eq v)
  | .lt, v => some (.lt v)
  | .le, v => some (.le v)
  | .gt, v => some (.gt v)
  | .ge, v => some (.ge v)
  | .beginsWith, .string start => some (.beginsWith start)
  | .beginsWith, _ => none
  | .ne, _ => none

/-- The comparison of a bound. -/
def comparison : SortCondition → Comparison
  | .eq _ => .eq
  | .lt _ => .lt
  | .le _ => .le
  | .gt _ => .gt
  | .ge _ => .ge
  | .beginsWith _ => .beginsWith

/-- The constant of a bound. -/
def constant : SortCondition → Stored
  | .eq v | .lt v | .le v | .gt v | .ge v => v
  | .beginsWith start => .string start

/-- A sort key keeps within a bound. -/
def accepts (c : SortCondition) (key : Stored) : Bool :=
  match c with
  | .eq v => key.compareScalar? v == some .eq
  | .lt v => key.compareScalar? v == some .lt
  | .le v => (key.compareScalar? v).any Ordering.isLE
  | .gt v => key.compareScalar? v == some .gt
  | .ge v => (key.compareScalar? v).any Ordering.isGE
  | .beginsWith start => key.string?.any fun s => Value.beginsWith s start

/-- The name of the kind of a bound. -/
def kindText : SortCondition → String
  | .eq _ => "Eq"
  | .lt _ => "Lt"
  | .le _ => "Le"
  | .gt _ => "Gt"
  | .ge _ => "Ge"
  | .beginsWith _ => "BeginsWith"

/-- The JSON of a bound. -/
def toJson : SortCondition → Json
  | .beginsWith start => .ofMembers [("BeginsWith", .string start)]
  | c => .ofMembers [(c.kindText, c.constant.toJson)]

end SortCondition

/-- A condition on the keys of the table or of an index. -/
structure KeyCondition where
  /-- the index, or none for the table itself -/
  index : Option String
  partitionKey : String
  partitionValue : Stored
  sortKey : Option String
  sort : Option SortCondition
  deriving Repr, DecidableEq

namespace KeyCondition

/-- An item has the partition key, and its sort key keeps within the bound. -/
def accepts (c : KeyCondition) (item : Item) : Bool :=
  let partition := (Fields.get? c.partitionKey item).bind fun v => v.compareScalar? c.partitionValue
  partition == some .eq &&
    match c.sortKey, c.sort with
    | some name, some bound => (Fields.get? name item).any bound.accepts
    | _, _ => true

/-- The comparison of a key with a constant. -/
def comparison (name : String) (op : Comparison) (v : Stored) : Native.Build Native.Condition := do
  let key ← Native.Build.number (Native.Placeholders.name name)
  let constant ← Native.Build.number (Native.Placeholders.value v)
  return .compare op (.path [.name key]) (.value constant)

/-- The comparisons that a condition on keys consists of. -/
def comparisons (c : KeyCondition) : Native.Build (List Native.Condition) := do
  let partition ← comparison c.partitionKey .eq c.partitionValue
  match c.sortKey, c.sort with
  | some name, some bound =>
    return [partition, ← comparison name bound.comparison bound.constant]
  | _, _ => return [partition]

/-- The text of the comparisons of a condition on keys. -/
def textOf (comparisons : List Native.Condition) : String :=
  " AND ".intercalate (comparisons.map Native.Condition.text)

/-- The JSON of a condition on keys. -/
def toJson (c : KeyCondition) : Json :=
  .ofMembers [("index_name", .ofString? c.index), ("partition_key", .string c.partitionKey),
    ("partition_value", c.partitionValue.toJson), ("sort", c.sort.elim .null SortCondition.toJson),
    ("sort_key", .ofString? c.sortKey)]

end KeyCondition

/-- A plan: a condition on keys if an index is used, a filter if one is needed, and both as the
store takes them. -/
structure Plan where
  keyCondition : Option KeyCondition
  filter : Option Term
  native : Native.Expression
  deriving Repr

namespace Plan

/-- The plan uses an index. -/
def canQuery (p : Plan) : Bool :=
  p.keyCondition.isSome

/-- The secondary index that the plan uses. -/
def index (p : Plan) : Option String :=
  p.keyCondition.bind KeyCondition.index

/-- The plan selects an item. -/
def matches? (p : Plan) (env : Environment) (item : Item) : Except QueryError Bool :=
  if p.keyCondition.all fun c => c.accepts item then
    match p.filter with
    | some t => t.holds env item
    | none => .ok true
  else .ok false

/-- The constant that a term fixes a partition key to. -/
def partitionTerm? (key : KeyAttribute) (t : Term) : Option Stored :=
  match t.keyTerm? with
  | some (name, .eq, v) =>
    if name = key.name ∧ key.type.accepts v.toStored then some v.toStored else none
  | _ => none

/-- The bound that a term sets on a sort key. -/
def sortTerm? (key : KeyAttribute) (t : Term) : Option SortCondition :=
  match t.keyTerm? with
  | some (name, op, v) =>
    if name = key.name ∧ key.type.accepts v.toStored then SortCondition.ofTerm? op v.toStored
    else none
  | none => none

/-- The first term that something can be made of, with its place. -/
def firstOf? {α : Type} (f : Term → Option α) (terms : List (Term × Nat)) : Option (α × Nat) :=
  terms.findSome? fun (t, i) => (f t).map (·, i)

/-- The condition on the keys of an index that terms make, and the places of those that it uses. -/
def select? (terms : List (Term × Nat)) (index : Option String) (keys : KeySchema) :
    Option (KeyCondition × List Nat) := do
  let (value, i) ← firstOf? (partitionTerm? keys.partitionKey) terms
  let others := terms.filter fun (_, j) => j ≠ i
  let sort := keys.sortKey.bind fun key => firstOf? (sortTerm? key) others
  return (⟨index, keys.partitionKey.name, value, keys.sortKey.map KeyAttribute.name,
    sort.map Prod.fst⟩, i :: (sort.map Prod.snd).toList)

/-- The terms whose places are not used, joined again. -/
def residual? (terms : List (Term × Nat)) (used : List Nat) : Option Term :=
  Term.conjunction? ((terms.filter fun (_, i) => !used.contains i).map Prod.fst)

/-- What is built, with the placeholders from none on. -/
def build {α : Type} (b : Native.Build α) : Except QueryError (α × Native.Placeholders) :=
  match b.run {} with
  | .ok a p => .ok (a, p)
  | .error e _ => .error e

/-- The condition that a filter is, if there is one. -/
def filterCondition (env : Environment) : Option Term → Native.Build (Option Native.Condition)
  | some t => do return some (← Native.condition env t)
  | none => return none

/-- The plan of a term for a table. -/
def ofTerm (env : Environment) (schema : TableSchema) (t : Term) : Except QueryError Plan := do
  let terms := t.conjuncts.zipIdx
  match schema.keySchemas.findSome? fun (index, keys) => select? terms index keys with
  | none =>
    let (filter, placeholders) ← build (Native.condition env t)
    return ⟨none, some t, placeholders.finish none (some filter.text)⟩
  | some (key, used) =>
    let filter := residual? terms used
    let ((comparisons, condition), placeholders) ← build do
      let comparisons ← key.comparisons
      return (comparisons, ← filterCondition env filter)
    return ⟨some key, filter, placeholders.finish (some (KeyCondition.textOf comparisons))
      (condition.map Native.Condition.text)⟩

/-- The plan of the text of an expression. -/
def compile (env : Environment) (schema : TableSchema) (text : String) :
    Except QueryError Plan := do
  let e ← (Expr.parse text).mapError QueryError.malformed
  ofTerm env schema (← Term.ofExpr schema e)

/-- The JSON of a plan. -/
def toJson (p : Plan) : Json :=
  .ofMembers [("CanQuery", .bool p.canQuery), ("Filter", .ofString? (p.filter.map Term.text)),
    ("IndexName", .ofString? p.index),
    ("KeyCondition", p.keyCondition.elim .null KeyCondition.toJson), ("Native", p.native.toJson)]

end Plan

end TableQuery
