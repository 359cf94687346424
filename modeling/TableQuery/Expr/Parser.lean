import TableQuery.Decimal.Text
import TableQuery.Expr.Basic
import TableQuery.Expr.Lexer

/-!
# Parsing expressions

From loosest to tightest: `or`, `and`, `not`, one comparison or type test, `+` and `-`, unary minus,
and the primaries. `or`, `and`, `+` and `-` group to the left, and comparisons do not chain. Each
parser takes tokens from the front and returns what it read with the shorter rest.
-/

namespace TableQuery

/-- The literal that a numeral writes: a machine integer where it is one, and else a decimal. -/
def Literal.ofNumeral? (numeral : String) : Option Literal :=
  match Text.int64OfDigits? numeral.toList with
  | some n => some (.int n)
  | none => (Decimal.ofText? numeral).map .decimal

namespace Parser

/-- Tokens that do not go on as they should: `rest` begins with the one that should be another. -/
structure Fault where
  rest : List Spanned
  expected : Expected

/-- What was read from fewer than `bound` tokens, and the tokens after it. -/
structure Parsed (α : Type) (bound : Nat) where
  value : α
  rest : List Spanned
  shorter : rest.length < bound

/-- A step in brackets after its opening bracket. -/
def bracketStep (ts : List Spanned) : Except Fault (Parsed Step ts.length) :=
  match ts with
  | ⟨.number n, _⟩ :: r =>
    match Text.uint64OfDigits? n.toList with
    | some i => close (.index i) r
    | none => .error ⟨ts, .stepIndex⟩
  | ⟨.string s, _⟩ :: r => close (.key s) r
  | _ => .error ⟨ts, .step⟩
where
  /-- The step once its closing bracket is read. -/
  close (step : Step) (r : List Spanned) : Except Fault (Parsed Step (r.length + 1)) :=
    match r with
    | ⟨.closeBracket, _⟩ :: r => .ok ⟨step, r, by simp only [List.length_cons]; omega⟩
    | _ => .error ⟨r, .closeBracket⟩

/-- The steps of a path after its first. -/
def steps (ts : List Spanned) : Except Fault (Parsed (List Step) (ts.length + 1)) :=
  match ts with
  | ⟨.dot, _⟩ :: ⟨.identifier name, _⟩ :: r => do
    let ⟨more, rest, _⟩ ← steps r
    return ⟨.key name :: more, rest, by simp only [List.length_cons]; omega⟩
  | ⟨.dot, _⟩ :: r => .error ⟨r, .stepName⟩
  | ⟨.openBracket, _⟩ :: r => do
    let ⟨step, rest, _⟩ ← bracketStep r
    let ⟨more, rest, _⟩ ← steps rest
    return ⟨step :: more, rest, by simp only [List.length_cons]; omega⟩
  | ts => .ok ⟨[], ts, by omega⟩
termination_by ts.length
decreasing_by all_goals simp only [List.length_cons] at *; omega

/-- A value once the closing parenthesis after it is read. -/
def closed (e : Expr) (ts : List Spanned) : Except Fault (Parsed Expr ts.length) :=
  match ts with
  | ⟨.closeParen, _⟩ :: r => .ok ⟨e, r, by simp only [List.length_cons]; omega⟩
  | ts => .error ⟨ts, .closeParen⟩

mutual

/-- An expression: conjunctions joined by `or`. -/
def disjunction (ts : List Spanned) : Except Fault (Parsed Expr ts.length) := do
  let ⟨left, rest, _⟩ ← conjunction ts
  let ⟨e, rest, _⟩ ← disjunctionRest left rest
  return ⟨e, rest, by omega⟩
termination_by 8 * ts.length + 6

/-- The conjunctions after the first of an expression. -/
def disjunctionRest (left : Expr) (ts : List Spanned) :
    Except Fault (Parsed Expr (ts.length + 1)) :=
  match ts with
  | ⟨.keyword .or, _⟩ :: r => do
    let ⟨right, rest, _⟩ ← conjunction r
    let ⟨e, rest, _⟩ ← disjunctionRest (.or left right) rest
    return ⟨e, rest, by simp only [List.length_cons]; omega⟩
  | ts => .ok ⟨left, ts, by omega⟩
termination_by 8 * ts.length

/-- Negations joined by `and`. -/
def conjunction (ts : List Spanned) : Except Fault (Parsed Expr ts.length) := do
  let ⟨left, rest, _⟩ ← negation ts
  let ⟨e, rest, _⟩ ← conjunctionRest left rest
  return ⟨e, rest, by omega⟩
termination_by 8 * ts.length + 5

/-- The negations after the first of a conjunction. -/
def conjunctionRest (left : Expr) (ts : List Spanned) :
    Except Fault (Parsed Expr (ts.length + 1)) :=
  match ts with
  | ⟨.keyword .and, _⟩ :: r => do
    let ⟨right, rest, _⟩ ← negation r
    let ⟨e, rest, _⟩ ← conjunctionRest (.and left right) rest
    return ⟨e, rest, by simp only [List.length_cons]; omega⟩
  | ts => .ok ⟨left, ts, by omega⟩
termination_by 8 * ts.length

/-- A comparison behind any number of `not`. -/
def negation (ts : List Spanned) : Except Fault (Parsed Expr ts.length) :=
  match ts with
  | ⟨.keyword .not, _⟩ :: r => do
    let ⟨e, rest, _⟩ ← negation r
    return ⟨.not e, rest, by simp only [List.length_cons]; omega⟩
  | ts => comparison ts
termination_by 8 * ts.length + 4

/-- A sum, or two sums with a comparison or a type test between them. -/
def comparison (ts : List Spanned) : Except Fault (Parsed Expr ts.length) := do
  let ⟨left, rest, _⟩ ← sum ts
  let ⟨e, rest, _⟩ ← comparisonRest left rest
  return ⟨e, rest, by omega⟩
termination_by 8 * ts.length + 3

/-- What may follow the first sum of a comparison or a type test. -/
def comparisonRest (left : Expr) (ts : List Spanned) :
    Except Fault (Parsed Expr (ts.length + 1)) :=
  match ts with
  | ⟨.keyword .is, _⟩ :: ⟨.keyword .not, _⟩ :: r => do
    let ⟨type, rest, _⟩ ← sum r
    return ⟨.is left true type, rest, by simp only [List.length_cons]; omega⟩
  | ⟨.keyword .is, _⟩ :: r => do
    let ⟨type, rest, _⟩ ← sum r
    return ⟨.is left false type, rest, by simp only [List.length_cons]; omega⟩
  | ⟨.compare op, _⟩ :: r => do
    let ⟨right, rest, _⟩ ← sum r
    return ⟨.compare op left right, rest, by simp only [List.length_cons]; omega⟩
  | ts => .ok ⟨left, ts, by omega⟩
termination_by 8 * ts.length

/-- Terms joined by `+` and `-`. -/
def sum (ts : List Spanned) : Except Fault (Parsed Expr ts.length) := do
  let ⟨left, rest, _⟩ ← minus ts
  let ⟨e, rest, _⟩ ← sumRest left rest
  return ⟨e, rest, by omega⟩
termination_by 8 * ts.length + 2

/-- The terms after the first of a sum. -/
def sumRest (left : Expr) (ts : List Spanned) : Except Fault (Parsed Expr (ts.length + 1)) :=
  match ts with
  | ⟨.arith op, _⟩ :: r => do
    let ⟨right, rest, _⟩ ← minus r
    let ⟨e, rest, _⟩ ← sumRest (.arith op left right) rest
    return ⟨e, rest, by simp only [List.length_cons]; omega⟩
  | ts => .ok ⟨left, ts, by omega⟩
termination_by 8 * ts.length

/-- A primary behind any number of minus signs. -/
def minus (ts : List Spanned) : Except Fault (Parsed Expr ts.length) :=
  match ts with
  | ⟨.arith .sub, _⟩ :: r => do
    let ⟨e, rest, _⟩ ← minus r
    return ⟨.neg e, rest, by simp only [List.length_cons]; omega⟩
  | ts => primary ts
termination_by 8 * ts.length + 1

/-- A literal, a path, a call or an expression in parentheses. -/
def primary (ts : List Spanned) : Except Fault (Parsed Expr ts.length) :=
  match ts with
  | ⟨.openParen, _⟩ :: r => do
    let ⟨e, rest, _⟩ ← disjunction r
    let ⟨e, rest, _⟩ ← closed e rest
    return ⟨e, rest, by simp only [List.length_cons]; omega⟩
  | ⟨.string s, _⟩ :: r => .ok ⟨.literal (.string s), r, by simp only [List.length_cons]; omega⟩
  | ⟨.number n, _⟩ :: r =>
    match Literal.ofNumeral? n with
    | some l => .ok ⟨.literal l, r, by simp only [List.length_cons]; omega⟩
    | none => .error ⟨ts, .number⟩
  | ⟨.keyword .true, _⟩ :: r =>
    .ok ⟨.literal (.bool true), r, by simp only [List.length_cons]; omega⟩
  | ⟨.keyword .false, _⟩ :: r =>
    .ok ⟨.literal (.bool false), r, by simp only [List.length_cons]; omega⟩
  | ⟨.keyword .null, _⟩ :: r => .ok ⟨.literal .null, r, by simp only [List.length_cons]; omega⟩
  | ⟨.identifier f, _⟩ :: ⟨.openParen, _⟩ :: ⟨.closeParen, _⟩ :: r =>
    .ok ⟨.call f [], r, by simp only [List.length_cons]; omega⟩
  | ⟨.identifier f, _⟩ :: ⟨.openParen, _⟩ :: r => do
    let ⟨args, rest, _⟩ ← arguments r
    return ⟨.call f args, rest, by simp only [List.length_cons]; omega⟩
  | ⟨.identifier name, _⟩ :: r => do
    let ⟨more, rest, _⟩ ← steps r
    return ⟨.name ⟨.key name :: more⟩, rest, by simp only [List.length_cons]; omega⟩
  | ts => .error ⟨ts, .expression⟩
termination_by 8 * ts.length

/-- The arguments of a call, to the closing parenthesis. -/
def arguments (ts : List Spanned) : Except Fault (Parsed (List Expr) ts.length) := do
  let ⟨a, rest, _⟩ ← disjunction ts
  let ⟨more, rest, _⟩ ← argumentsRest rest
  return ⟨a :: more, rest, by omega⟩
termination_by 8 * ts.length + 7

/-- The arguments after the first of a call, to the closing parenthesis. -/
def argumentsRest (ts : List Spanned) : Except Fault (Parsed (List Expr) ts.length) :=
  match ts with
  | ⟨.comma, _⟩ :: r => do
    let ⟨args, rest, _⟩ ← arguments r
    return ⟨args, rest, by simp only [List.length_cons]; omega⟩
  | ⟨.closeParen, _⟩ :: r => .ok ⟨[], r, by simp only [List.length_cons]; omega⟩
  | ts => .error ⟨ts, .closeParen⟩
termination_by 8 * ts.length

end

/-- Tokens that are one expression. -/
def whole (ts : List Spanned) : Except Fault Expr := do
  let ⟨e, rest, _⟩ ← disjunction ts
  if rest.isEmpty then return e else .error ⟨rest, .endOfInput⟩

/-- The syntax error of a fault in a text of `total` characters. -/
def Fault.toSyntaxError (total : Nat) (f : Fault) : SyntaxError :=
  match f.rest with
  | t :: _ => ⟨t.start, .token t.token, f.expected⟩
  | [] => ⟨total, .endOfInput, f.expected⟩

end Parser

/-- Parses the characters of an expression. -/
def Expr.parseChars (s : List Char) : Except SyntaxError Expr := do
  let ts ← tokens s
  (Parser.whole ts).mapError (Parser.Fault.toSyntaxError s.length)

/-- Parses the text of an expression. -/
def Expr.parse (text : String) : Except SyntaxError Expr :=
  parseChars text.toList

end TableQuery
