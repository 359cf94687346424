import TableQuery.Operator
import TableQuery.Value.Basic

/-!
# Equality and order of values

Any two values are the same or not, and numbers are the same by value. Only two numbers or two
strings have an order.
-/

namespace TableQuery.Value

mutual

/-- Two values are the same. -/
def same : Value → Value → Bool
  | .string a, .string b => a == b
  | .bool a, .bool b => a == b
  | .null, .null => true
  | .list as, .list bs => sameAll as bs
  | .map as, .map bs => sameFields as bs
  | .stored a, .stored b => a == b
  | a, b =>
    match a.decimal?, b.decimal? with
    | some x, some y => x.same y
    | _, _ => false

/-- Two lists of the same values. -/
def sameAll : List Value → List Value → Bool
  | [], [] => true
  | a :: as, b :: bs => same a b && sameAll as bs
  | _, _ => false

/-- Two maps of the same values under the same names. -/
def sameFields : List (String × Value) → List (String × Value) → Bool
  | [], [] => true
  | (k, a) :: as, (l, b) :: bs => k == l && same a b && sameFields as bs
  | _, _ => false

end

/-- The order of two numbers or of two strings. -/
def order? (a b : Value) : Option Ordering :=
  match a.decimal?, b.decimal? with
  | some x, some y => some (x.compare y)
  | _, _ =>
    match a.string?, b.string? with
    | some s, some t => some (compare s t)
    | _, _ => none

/-- One text begins with another. -/
def beginsWith (s start : String) : Bool :=
  start.toList.isPrefixOf s.toList

/-- Whether a comparison of two values holds, if they can be compared so. -/
def compare? (op : Comparison) (a b : Value) : Option Bool :=
  match op with
  | .eq => some (a.same b)
  | .ne => some (!a.same b)
  | .lt => (a.order? b).map Ordering.isLT
  | .le => (a.order? b).map Ordering.isLE
  | .gt => (a.order? b).map Ordering.isGT
  | .ge => (a.order? b).map Ordering.isGE
  | .beginsWith =>
    match a.string?, b.string? with
    | some s, some t => some (beginsWith s t)
    | _, _ => none

end TableQuery.Value
