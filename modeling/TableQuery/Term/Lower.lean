import TableQuery.Error
import TableQuery.Schema.Basic
import TableQuery.Value.Arith

/-!
# From expressions to terms

Lowering finds the functions and the types that an expression names, takes a minus sign into a
number, takes `not` into a test for a value, and puts the attribute on the left of a comparison with
a constant.
-/

namespace TableQuery

/-- The value of a literal. -/
def Literal.value : Literal → Value
  | .string s => .string s
  | .int n => .int n
  | .decimal d => .decimal d
  | .bool b => .bool b
  | .null => .null

namespace Term

/-- The negation of a term; a test for a value carries it itself. -/
def negated : Term → Term
  | .is path .any flag => .is path .any (!flag)
  | t => .not t

/-- The numeric negation of a term; the negation of a number is a number. -/
def negative : Term → Except QueryError Term
  | .value v => if v.decimal?.isSome then v.negate.map .value else .ok (.neg (.value v))
  | t => .ok (.neg t)

/-- A comparison compares a key attribute of a table with a constant. -/
def comparesKey (schema : TableSchema) : Term → Term → Bool
  | .name path, .value _ => path.attribute?.any schema.isKey
  | _, _ => false

/-- A comparison; one of a constant with an attribute is turned around, if it can be. -/
def comparison (schema : TableSchema) (op : Comparison) (left right : Term) : Term :=
  match left, right, op.exchanged? with
  | .value v, .name path, some turned =>
    .compare turned (.name path) (.value v) (comparesKey schema (.name path) (.value v))
  | _, _, _ => .compare op left right (comparesKey schema left right)

/-- A test that a value is, or is not, of a type; only a test for a value carries the negation. -/
def typeTest (path : Path) (test : TypeTest) (isNegated : Bool) : Term :=
  match test with
  | .any => .is path .any isNegated
  | .tag t => if isNegated then .not (.is path (.tag t) false) else .is path (.tag t) false

mutual

/-- The term of an expression about a table. -/
def ofExpr (schema : TableSchema) : Expr → Except QueryError Term
  | .literal l => .ok (.value l.value)
  | .name path => .ok (.name path)
  | .not e => (ofExpr schema e).map negated
  | .neg e => do negative (← ofExpr schema e)
  | .and l r => do return .and (← ofExpr schema l) (← ofExpr schema r)
  | .or l r => do return .or (← ofExpr schema l) (← ofExpr schema r)
  | .compare op l r => do return comparison schema op (← ofExpr schema l) (← ofExpr schema r)
  | .arith op l r => do return .arith op (← ofExpr schema l) (← ofExpr schema r)
  | .is operand isNegated type => do
    match ← ofExpr schema operand with
    | .name path =>
      match ← ofExpr schema type with
      | .value (.string typeName) =>
        match TypeTest.ofName? typeName with
        | some test => return typeTest path test isNegated
        | none => .error (.unknownType typeName)
      | .value _ => .error (.typeNotAString type)
      | _ => .error (.typeNotALiteral type)
    | _ => .error (.operandNotAName operand)
  | .call function args => do
    match Builtin.ofName? function with
    | some f => return .call f (← ofExprs schema args)
    | none => .error (.unknownFunction function)

/-- The terms of expressions. -/
def ofExprs (schema : TableSchema) : List Expr → Except QueryError (List Term)
  | [] => .ok []
  | e :: rest => do
    let t ← ofExpr schema e
    let more ← ofExprs schema rest
    return t :: more

end

end Term

end TableQuery
