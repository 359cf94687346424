import TableQuery.Error
import TableQuery.Value.Order

/-!
# Arithmetic on values

Sums, differences and negations are exact: they are machine integers where both operands are and the
result fits, and else decimals. A string makes a sum a concatenation.
-/

namespace TableQuery.Value

/-- The text that a value is read as, or the error that it has none. -/
def readText (v : Value) : Except QueryError String :=
  match v.asText? with
  | some s => .ok s
  | none => .error (.noText v)

/-- The exact result of an operation on two machine integers, if the values are such and it fits. -/
def int? (op : Int → Int → Int) : Value → Value → Option Value
  | .int a, .int b => (Text.int64? (op a.toInt b.toInt)).map .int
  | _, _ => none

/-- The result of an operation on two numbers. -/
def number? (op : Decimal → Decimal → Decimal) (a b : Value) : Option Value := do
  return .decimal (op (← a.decimal?) (← b.decimal?))

/-- The sum of two numbers, or two texts of which one is a string in one. -/
def add (a b : Value) : Except QueryError Value :=
  match int? (· + ·) a b <|> number? (· + ·) a b with
  | some v => .ok v
  | none =>
    if a.string?.isSome || b.string?.isSome then do
      let s ← a.readText
      let t ← b.readText
      return .string (s ++ t)
    else .error (.unsupported (.addition a b))

/-- The difference of two numbers. -/
def subtract (a b : Value) : Except QueryError Value :=
  match int? (· - ·) a b <|> number? (· - ·) a b with
  | some v => .ok v
  | none => .error (.unsupported (.subtraction a b))

/-- The negated number. -/
def negate : Value → Except QueryError Value
  | .int n =>
    match Text.int64? (-n.toInt) with
    | some m => .ok (.int m)
    | none => .ok (.decimal (-(Decimal.ofInt n.toInt)))
  | .decimal d => .ok (.decimal (-d))
  | v => .error (.unsupported (.negation v))

/-- The result of an arithmetic operator. -/
def arith : Arith → Value → Value → Except QueryError Value
  | .add => add
  | .sub => subtract

/-- Whether a comparison holds, or the error that the values cannot be compared so. -/
def compare (op : Comparison) (a b : Value) : Except QueryError Bool :=
  match compare? op a b with
  | some b => .ok b
  | none => .error (.notComparable a b)

/-- The order of two values, or the error that they have none. -/
def order (a b : Value) : Except QueryError Ordering :=
  match order? a b with
  | some o => .ok o
  | none => .error (.notComparable a b)

/-- The number of characters of a string, of fields of a map, or of elements of a list or set. -/
def size (v : Value) : Except QueryError Nat :=
  match v.string?, v.fields?, v.elements? with
  | some s, _, _ => .ok s.length
  | _, some fields, _ => .ok fields.length
  | _, _, some xs => .ok xs.length
  | _, _, _ => .error (.unsupported (.size v))

end TableQuery.Value
