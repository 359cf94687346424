import TableQuery.Text.Digits

/-!
# Decimal numbers

A decimal is a whole coefficient and a scale, standing for coefficient × 10^-scale. One number has
many decimals, so equality and order are by value; the result of an operation keeps the scale that
makes it exact.
-/

namespace TableQuery

/-- The number `coefficient` × 10^-`scale`. -/
structure Decimal where
  coefficient : Int
  scale : Int64
  deriving Repr, DecidableEq, Inhabited

namespace Decimal

/-- A whole number, at scale zero. -/
def ofInt (n : Int) : Decimal :=
  ⟨n, 0⟩

/-- How many decimal digits a natural number has; zero has one. -/
def digitCount (n : Nat) : Nat :=
  (Text.digits n).length

/-- The power of ten above the leading digit of a decimal. -/
def magnitude (a : Decimal) : Int :=
  digitCount a.coefficient.natAbs - a.scale.toInt

/-- The coefficient of a decimal at a scale not below its own. -/
def coefficientAt (a : Decimal) (scale : Int64) : Int :=
  a.coefficient * Nat.pow 10 (scale.toInt - a.scale.toInt).toNat

/-- The order of the absolute values: by magnitude first, so that only decimals of one magnitude are
brought to one scale. -/
def compareAbs (a b : Decimal) : Ordering :=
  if a.coefficient = 0 ∨ b.coefficient = 0 then compare a.coefficient.natAbs b.coefficient.natAbs
  else
    match compare a.magnitude b.magnitude with
    | .eq =>
      let scale := max a.scale b.scale
      compare (a.coefficientAt scale).natAbs (b.coefficientAt scale).natAbs
    | order => order

/-- The order of the numbers that two decimals stand for. -/
protected def compare (a b : Decimal) : Ordering :=
  match compare a.coefficient.sign b.coefficient.sign with
  | .eq => if a.coefficient < 0 then b.compareAbs a else a.compareAbs b
  | order => order

/-- Two decimals stand for the same number. -/
def same (a b : Decimal) : Bool :=
  a.compare b == .eq

/-- The negated number at the same scale. -/
protected def neg (a : Decimal) : Decimal :=
  ⟨-a.coefficient, a.scale⟩

/-- The sum, at the larger scale of the two. -/
protected def add (a b : Decimal) : Decimal :=
  let scale := max a.scale b.scale
  ⟨a.coefficientAt scale + b.coefficientAt scale, scale⟩

/-- The difference, at the larger scale of the two; an operand that is zero gives no scale. -/
protected def sub (a b : Decimal) : Decimal :=
  if b.coefficient = 0 then a
  else if a.coefficient = 0 then b.neg
  else
    let scale := max a.scale b.scale
    ⟨a.coefficientAt scale - b.coefficientAt scale, scale⟩

instance : Neg Decimal := ⟨Decimal.neg⟩
instance : Add Decimal := ⟨Decimal.add⟩
instance : Sub Decimal := ⟨Decimal.sub⟩

/-- The whole part of a decimal of at least one digit before the point. -/
def wholePart (a : Decimal) : Int :=
  if a.scale < 0 then a.coefficient * Nat.pow 10 (-a.scale.toInt).toNat
  else a.coefficient.tdiv (Nat.pow 10 a.scale.toInt.toNat)

/-- The number cut off at the point, if the result is a machine integer. The bounds are tested
first, so that no power of ten is written out for a number far outside them. -/
def truncate? (a : Decimal) : Option Int64 :=
  if a.compare (ofInt 0x8000000000000000) ≠ .lt then none
  else if a.compare (ofInt (-0x8000000000000001)) ≠ .gt then none
  else if a.compareAbs (ofInt 1) = .lt then some 0
  else Text.int64? a.wholePart

end Decimal

end TableQuery
