import TableQuery.Native.Condition
import TableQuery.Stored.Json
import TableQuery.Term.Eval

/-!
# Building conditions of the store

A term becomes a condition: what is the same for every row is evaluated and becomes a constant, and
the rest has to be something that the store knows. Placeholders are numbered as they are first
needed, and those that were given out stay when the term turns out to have no condition.
-/

namespace TableQuery.Native

/-- The names and the constants that have placeholders, each at the place of its number. -/
structure Placeholders where
  names : List String := []
  values : List Stored := []
  deriving Repr, DecidableEq, Inhabited

namespace Placeholders

/-- The number of a name, which is a new one only if the name has none yet. -/
def name (s : String) (p : Placeholders) : Nat × Placeholders :=
  match p.names.findIdx? (· == s) with
  | some i => (i, p)
  | none => (p.names.length, { p with names := p.names ++ [s] })

/-- A new number for a constant. -/
def value (v : Stored) (p : Placeholders) : Nat × Placeholders :=
  (p.values.length, { p with values := p.values ++ [v] })

/-- The steps of a path with the numbers of its names. -/
def steps (p : Placeholders) : List TableQuery.Step → List Step × Placeholders
  | [] => ([], p)
  | .key k :: rest =>
    let (n, p) := p.name k
    let (more, p) := p.steps rest
    (.name n :: more, p)
  | .index i :: rest =>
    let (more, p) := p.steps rest
    (.index i :: more, p)

/-- The names by their placeholders. -/
def nameFields (p : Placeholders) : Fields String :=
  Fields.ofList (p.names.zipIdx.map fun (s, i) => (namePlaceholder i, s))

/-- The constants by their placeholders. -/
def valueFields (p : Placeholders) : Fields Stored :=
  Fields.ofList (p.values.zipIdx.map fun (v, i) => (valuePlaceholder i, v))

end Placeholders

/-- What is built while placeholders are given out; they stay if it fails. -/
abbrev Build := EStateM QueryError Placeholders

namespace Build

/-- Gives out the placeholders of something. -/
def number {α : Type} (f : Placeholders → α × Placeholders) : Build α :=
  fun p => let (a, p) := f p; .ok a p

/-- The outcome of something that needs no placeholders. -/
def lift {α : Type} : Except QueryError α → Build α
  | .ok a => fun p => .ok a p
  | .error e => fun p => .error e p

end Build

/-- The operand that a term is. -/
def operand (env : Environment) (t : Term) : Build Operand :=
  if t.isConstant then do
    let v ← Build.lift (t.eval env [])
    return .value (← Build.number (Placeholders.value v.toStored))
  else
    match t with
    | .name path => do return .path (← Build.number (·.steps path.steps))
    | .call .size [.name path] => do return .size (← Build.number (·.steps path.steps))
    | t => throw (.unsupported (.operand t))

/-- The condition that a term is. -/
def condition (env : Environment) : Term → Build Condition
  | .compare op l r _ => do
    let left ← operand env l
    let right ← operand env r
    return .compare op left right
  | .and l r => do
    let left ← condition env l
    let right ← condition env r
    return .and left right
  | .or l r => do
    let left ← condition env l
    let right ← condition env r
    return .or left right
  | .not t => do return .not (← condition env t)
  | .is path test isNegated => do
    let steps ← Build.number (·.steps path.steps)
    match test with
    | .any => return if isNegated then .notExists steps else .exists steps
    | .tag t => return .type steps (← Build.number (Placeholders.value (.string t.text)))
  | t => throw (.unsupported (.condition t))

/-- A query of the store: the texts of its conditions and what their placeholders stand for. -/
structure Expression where
  keyCondition : Option String
  filter : Option String
  names : Fields String
  values : Fields Stored
  deriving Repr

/-- The query of two conditions, with the placeholders that were given out for them. -/
def Placeholders.finish (p : Placeholders) (keyCondition filter : Option String) : Expression :=
  ⟨keyCondition, filter, p.nameFields, p.valueFields⟩

/-- The JSON of a query, without the parts that it does not have. -/
def Expression.toJson (e : Expression) : Json :=
  .ofMembers
    ((if e.names.isEmpty then []
      else [("ExpressionAttributeNames", .ofMembers (e.names.map fun (k, s) => (k, .string s)))])
    ++ (if e.values.isEmpty then []
      else [("ExpressionAttributeValues", .ofMembers (e.values.map fun (k, v) => (k, v.toJson)))])
    ++ (e.filter.elim [] fun text => [("FilterExpression", .string text)])
    ++ (e.keyCondition.elim [] fun text => [("KeyConditionExpression", .string text)]))

end TableQuery.Native
