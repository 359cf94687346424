/-!
# Operators

The comparisons and the arithmetic operators of expressions.
-/

namespace TableQuery

/-- The comparisons. -/
inductive Comparison where
  | eq | ne | lt | le | gt | ge | beginsWith
  deriving Repr, DecidableEq, Inhabited

namespace Comparison

/-- Every comparison. -/
def all : List Comparison :=
  [.eq, .ne, .lt, .le, .gt, .ge, .beginsWith]

/-- How a comparison is written. -/
def text : Comparison → String
  | .eq => "="
  | .ne => "<>"
  | .lt => "<"
  | .le => "<="
  | .gt => ">"
  | .ge => ">="
  | .beginsWith => "^="

/-- The comparison that holds with its operands exchanged; `^=` has none. -/
def exchanged? : Comparison → Option Comparison
  | .eq => some .eq
  | .ne => some .ne
  | .lt => some .gt
  | .le => some .ge
  | .gt => some .lt
  | .ge => some .le
  | .beginsWith => none

end Comparison

/-- The arithmetic operators. -/
inductive Arith where
  | add | sub
  deriving Repr, DecidableEq, Inhabited

/-- How an arithmetic operator is written. -/
def Arith.text : Arith → String
  | .add => "+"
  | .sub => "-"

end TableQuery
