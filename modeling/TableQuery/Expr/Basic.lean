import TableQuery.Decimal.Basic
import TableQuery.Operator
import TableQuery.Path

/-!
# Expressions

The tree of an expression as it is written, before any name in it is known.
-/

namespace TableQuery

/-- A value that stands in the text of an expression. -/
inductive Literal where
  | string (s : String)
  | int (n : Int64)
  | decimal (d : Decimal)
  | bool (b : Bool)
  | null
  deriving Repr, DecidableEq, Inhabited

/-- An expression. -/
inductive Expr where
  | literal (l : Literal)
  | name (path : Path)
  | not (e : Expr)
  | neg (e : Expr)
  | or (left right : Expr)
  | and (left right : Expr)
  | compare (op : Comparison) (left right : Expr)
  | arith (op : Arith) (left right : Expr)
  /-- the test that `operand` is, or is not, of the type that `type` names -/
  | is (operand : Expr) (negated : Bool) (type : Expr)
  | call (function : String) (args : List Expr)
  deriving Repr, Inhabited

/-- Two literals of one kind with one value; decimals are compared by value. -/
def Literal.same : Literal → Literal → Bool
  | .string a, .string b => a == b
  | .int a, .int b => a == b
  | .decimal a, .decimal b => a.same b
  | .bool a, .bool b => a == b
  | .null, .null => true
  | _, _ => false

mutual

/-- Two expressions of one shape with the same literals. -/
def Expr.same : Expr → Expr → Bool
  | .literal a, .literal b => a.same b
  | .name a, .name b => a == b
  | .not a, .not b => Expr.same a b
  | .neg a, .neg b => Expr.same a b
  | .or a b, .or c d => Expr.same a c && Expr.same b d
  | .and a b, .and c d => Expr.same a c && Expr.same b d
  | .compare op a b, .compare op' c d => op == op' && Expr.same a c && Expr.same b d
  | .arith op a b, .arith op' c d => op == op' && Expr.same a c && Expr.same b d
  | .is a n b, .is c n' d => n == n' && Expr.same a c && Expr.same b d
  | .call f as, .call g bs => f == g && Expr.sameAll as bs
  | _, _ => false

/-- Two lists of pairwise same expressions. -/
def Expr.sameAll : List Expr → List Expr → Bool
  | [], [] => true
  | a :: as, b :: bs => Expr.same a b && Expr.sameAll as bs
  | _, _ => false

end

end TableQuery
