import TableQuery.Term.Eval
import TableQuery.Term.Lower

/-!
# The meaning of an expression

What an expression means for an item, said of the expression as it is written and without any
rewriting: every operator is applied to the values of its operands, from left to right. An error is
only told by its kind, for its text may name a part of the expression.
-/

namespace TableQuery

/-- The kinds of errors. -/
inductive ErrorKind where
  | malformed | nameNotFound | notAMap | notComparable | noText
  | operandNotAName | typeNotALiteral | typeNotAString | unknownType
  | argumentCount | argumentType | unknownFunction | noColumn | markedItem
  | unsupported | readOnly | noRow | file | csv
  deriving Repr, DecidableEq

/-- The kind of an error. -/
def QueryError.kind : QueryError → ErrorKind
  | .malformed _ => .malformed
  | .nameNotFound _ => .nameNotFound
  | .notAMap _ => .notAMap
  | .notComparable .. => .notComparable
  | .noText _ | .noElement .. => .noText
  | .operandNotAName _ => .operandNotAName
  | .typeNotALiteral _ => .typeNotALiteral
  | .typeNotAString _ => .typeNotAString
  | .unknownType _ => .unknownType
  | .argumentCount .. => .argumentCount
  | .argumentType .. => .argumentType
  | .unknownFunction _ => .unknownFunction
  | .noColumn _ => .noColumn
  | .markedItem .. => .markedItem
  | .unsupported _ => .unsupported
  | .readOnly => .readOnly
  | .noRow _ => .noRow
  | .file _ => .file
  | .csv _ => .csv

namespace Expr

/-- A value, or the kind of an error. -/
abbrev Result := Except ErrorKind Value

/-- An outcome of which an error is only told by its kind. -/
def ofKind {α : Type} (result : Except QueryError α) : Except ErrorKind α :=
  result.mapError QueryError.kind

/-- The truth value that a value is. -/
def asTruth : Value → Except ErrorKind Bool
  | .bool b => .ok b
  | _ => .error .unsupported

/-- The value of an operand that may be absent: a path that leads nowhere has none. -/
def ifPresent : Result → Except ErrorKind (Option Value)
  | .ok v => .ok (some v)
  | .error .nameNotFound | .error .notAMap => .ok none
  | .error kind => .error kind

/-- A comparison of two operands in the order in which they are written; it is false if one of them
is absent. -/
def compares (op : Comparison) (left right : Result) : Except ErrorKind Bool := do
  match ← ifPresent left with
  | none => return false
  | some a =>
    match ← ifPresent right with
    | none => return false
    | some b => ofKind (a.compare op b)

/-- A type test of an operand: it is there, and of the type if one is asked for. -/
def isOf (test : TypeTest) (operand : Result) : Except ErrorKind Bool := do
  match ← ifPresent operand with
  | none => return false
  | some v =>
    match test with
    | .any => return true
    | .tag t => return v.tag == t

/-- The test that the type operand of a type test names. -/
def namedTest : Expr → Except ErrorKind TypeTest
  | .literal (.string typeName) =>
    match TypeTest.ofName? typeName with
    | some test => .ok test
    | none => .error .unknownType
  | .literal _ => .error .typeNotAString
  | _ => .error .typeNotALiteral

mutual

/-- The meaning of an expression for an item. -/
def meaning (env : Environment) (item : Item) : Expr → Result
  | .literal l => .ok l.value
  | .name path => ofKind (item.value path)
  | .not e => do return .bool (!(← asTruth (← meaning env item e)))
  | .neg e => do ofKind (← meaning env item e).negate
  | .and l r => do
    if ← asTruth (← meaning env item l) then return .bool (← asTruth (← meaning env item r))
    else return .bool false
  | .or l r => do
    if ← asTruth (← meaning env item l) then return .bool true
    else return .bool (← asTruth (← meaning env item r))
  | .compare op l r => do return .bool (← compares op (meaning env item l) (meaning env item r))
  | .arith op l r => do
    let a ← meaning env item l
    let b ← meaning env item r
    ofKind (Value.arith op a b)
  | .is (.name path) negated type => do
    let b ← isOf (← namedTest type) (ofKind (item.value path))
    return .bool (if negated then !b else b)
  | .is .. => .error .operandNotAName
  | .call function args => do
    let values ← meanings env item args
    match Builtin.ofName? function with
    | some f => ofKind (Builtin.apply env f values)
    | none => .error .unknownFunction

/-- The meanings of expressions for an item. -/
def meanings (env : Environment) (item : Item) : List Expr → Except ErrorKind (List Value)
  | [] => .ok []
  | e :: rest => do
    let v ← meaning env item e
    let more ← meanings env item rest
    return v :: more

end

end Expr

end TableQuery
