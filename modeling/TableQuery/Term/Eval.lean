import TableQuery.Builtin.Apply
import TableQuery.Item

/-!
# Evaluating terms

A term has a value for an item in an environment. Comparisons and type tests take a path that leads
nowhere for an absent value and are false of it; everything else fails on it. `and` and `or` stop at
the operand that decides them.
-/

namespace TableQuery

/-- A value that may be absent: an error that a path leads nowhere is no error. -/
def tolerateAbsent (result : Except QueryError Value) : Except QueryError (Option Value) :=
  match result with
  | .ok v => .ok (some v)
  | .error (.nameNotFound _) | .error (.notAMap _) => .ok none
  | .error e => .error e

/-- The value that a path leads to. -/
def Item.value (item : Item) (path : Path) : Except QueryError Value := do
  Value.read (← item.get path)

namespace Term

/-- The truth value of a result, which `t` was evaluated to. -/
def truth (t : Term) : Value → Except QueryError Bool
  | .bool b => .ok b
  | v => .error (.unsupported (.notBoolean t v))

/-- The comparison of two results, of which the second is only looked at if the first is there. -/
def compareResults (op : Comparison) (left right : Except QueryError Value) :
    Except QueryError Bool := do
  match ← tolerateAbsent left with
  | none => return false
  | some a =>
    match ← tolerateAbsent right with
    | none => return false
    | some b => a.compare op b

/-- Whether a value that may be absent passes a type test. -/
def passes (test : TypeTest) (isNegated : Bool) (found : Option Value) : Bool :=
  match test with
  | .any => found.isSome != isNegated
  | .tag t => found.any fun v => v.tag == t

mutual

/-- The value of a term for an item. -/
def eval (env : Environment) (item : Item) : Term → Except QueryError Value
  | .value v => .ok v
  | .name path => item.value path
  | .compare op l r _ => do
    return .bool (← compareResults op (eval env item l) (eval env item r))
  | .and l r => do
    if ← l.truth (← eval env item l) then return .bool (← r.truth (← eval env item r))
    else return .bool false
  | .or l r => do
    if ← l.truth (← eval env item l) then return .bool true
    else return .bool (← r.truth (← eval env item r))
  | .not t => do return .bool (!(← t.truth (← eval env item t)))
  | .is path test isNegated => do
    return .bool (passes test isNegated (← tolerateAbsent (item.value path)))
  | .arith op l r => do
    let a ← eval env item l
    let b ← eval env item r
    Value.arith op a b
  | .neg t => do (← eval env item t).negate
  | .call f args => do Builtin.apply env f (← evalAll env item args)

/-- The values of terms for an item. -/
def evalAll (env : Environment) (item : Item) : List Term → Except QueryError (List Value)
  | [] => .ok []
  | t :: rest => do
    let v ← eval env item t
    let more ← evalAll env item rest
    return v :: more

end

/-- Whether a term is true of an item. -/
def holds (env : Environment) (item : Item) (t : Term) : Except QueryError Bool := do
  t.truth (← t.eval env item)

end Term

end TableQuery
