/-!
# Decimal digits

Reading and writing whole numbers as decimal digits, and the two machine ranges that numerals are
tested against.
-/

namespace TableQuery.Text

/-- The value of a digit character. -/
def digitValue (c : Char) : Nat :=
  c.toNat - '0'.toNat

/-- The number that a string of digits writes, the leftmost digit weighing most. -/
def digitsValue (s : List Char) : Nat :=
  s.foldl (fun n c => 10 * n + digitValue c) 0

/-- The number written by a nonempty string of ASCII digits and nothing else. -/
def natOfDigits? (s : List Char) : Option Nat :=
  if s ≠ [] ∧ s.all Char.isDigit then some (digitsValue s) else none

/-- The number written by digits after at most one sign. -/
def intOfDigits? : List Char → Option Int
  | '-' :: s => (natOfDigits? s).map fun n => -(n : Int)
  | '+' :: s => (natOfDigits? s).map fun n => (n : Int)
  | s => (natOfDigits? s).map fun n => (n : Int)

/-- A whole number as a machine integer, if it lies between -2^63 and 2^63 - 1. -/
def int64? (n : Int) : Option Int64 :=
  if -0x8000000000000000 ≤ n ∧ n < 0x8000000000000000 then some (Int64.ofInt n) else none

/-- A natural number as a machine index, if it lies below 2^64. -/
def uint64? (n : Nat) : Option UInt64 :=
  if n < 0x10000000000000000 then some (UInt64.ofNat n) else none

/-- The machine integer that a signed string of digits writes. -/
def int64OfDigits? (s : List Char) : Option Int64 :=
  (intOfDigits? s).bind int64?

/-- The machine index that a string of digits writes, with an optional plus sign. -/
def uint64OfDigits? : List Char → Option UInt64
  | '+' :: s => (natOfDigits? s).bind uint64?
  | s => (natOfDigits? s).bind uint64?

/-- The decimal digits of a natural number, without leading zeros. -/
def digits (n : Nat) : List Char :=
  Nat.toDigits 10 n

/-- A whole number in decimal, with a minus sign if it is negative. -/
def intText (n : Int) : String :=
  if n < 0 then String.ofList ('-' :: digits n.natAbs) else String.ofList (digits n.natAbs)

/-- A natural number in decimal. -/
def natText (n : Nat) : String :=
  String.ofList (digits n)

end TableQuery.Text
