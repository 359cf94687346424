import TableQuery.Decimal.Basic

/-!
# The text of a decimal

A decimal is written plainly while that takes few zeros: a number with more than five zeros after
the point is scientific, and one with more than fifteen zeros before it has its exponent behind its
digits. Reading takes any of these forms, and digits may be set apart by underscores.
-/

namespace TableQuery.Decimal

open TableQuery.Text (digits natOfDigits? intOfDigits? int64?)

/-- The most zeros between the point and the first digit. -/
def maxLeadingZeros : Nat := 5

/-- The most zeros between the last digit and the point. -/
def maxTrailingZeros : Nat := 15

/-- Digits with a point before the last `places` of them, and zeros before it as needed. -/
def pointed (ds : List Char) (places : Nat) : List Char :=
  if places < ds.length then
    ds.take (ds.length - places) ++ '.' :: ds.drop (ds.length - places)
  else '0' :: '.' :: List.replicate (places - ds.length) '0' ++ ds

/-- Digits at a scale without an exponent. -/
def plain (ds : List Char) (scale : Int) : List Char :=
  if scale ≤ 0 then ds ++ List.replicate scale.natAbs '0' else pointed ds scale.toNat

/-- Digits with the point after the first one, and a signed exponent behind `mark`. -/
def scientific (mark : Char) (ds : List Char) (exponent : Int) : List Char :=
  let fraction := ds.drop 1
  ds.take 1 ++ (if fraction.isEmpty then [] else '.' :: fraction)
    ++ mark :: (if exponent < 0 then '-' else '+') :: digits exponent.natAbs

/-- The text of the digits `ds` at a scale. -/
def unsignedText (ds : List Char) (scale : Int) : List Char :=
  if ds.length + maxLeadingZeros < scale then
    scientific 'E' ds (ds.length - 1 - scale)
  else if scale < -(maxTrailingZeros : Int) then
    ds ++ 'e' :: '+' :: digits scale.natAbs
  else plain ds scale

/-- The text of a decimal; zero is written the same at every scale. -/
def text (a : Decimal) : String :=
  if a.coefficient = 0 then "0"
  else
    String.ofList ((if a.coefficient < 0 then ['-'] else [])
      ++ unsignedText (digits a.coefficient.natAbs) a.scale.toInt)

/-- The digits of a numeral, which may be set apart by underscores after the first. -/
def natOfSpaced? (s : List Char) : Option Nat :=
  if s.head? = some '_' then none else natOfDigits? (s.filter (· ≠ '_'))

/-- The whole number that a numeral writes, after at most one sign. -/
def intOfSpaced? : List Char → Option Int
  | '-' :: s => (natOfSpaced? s).map fun n => -(n : Int)
  | '+' :: s => (natOfSpaced? s).map fun n => (n : Int)
  | s => (natOfSpaced? s).map fun n => (n : Int)

/-- A text before and after the first character of a kind, if it has one. -/
def splitFirst (p : Char → Bool) (s : List Char) : List Char × Option (List Char) :=
  match s.dropWhile (fun c => !p c) with
  | [] => (s, none)
  | _ :: rest => (s.takeWhile (fun c => !p c), some rest)

/-- Reads a decimal: a numeral with at most one point in it, and an exponent behind `e` or `E`. -/
def ofChars? (s : List Char) : Option Decimal := do
  let (base, exponentPart) := splitFirst (fun c => c == 'e' || c == 'E') s
  let exponent ← exponentPart.elim (some 0) intOfDigits?
  let (whole, fractionPart) := splitFirst (· == '.') base
  let fraction := fractionPart.getD []
  let n ← intOfSpaced? (whole ++ fraction)
  let scale ← int64? ((fraction.filter (· ≠ '_')).length - exponent)
  return ⟨n, scale⟩

/-- Reads the text of a decimal. -/
def ofText? (text : String) : Option Decimal :=
  ofChars? text.toList

end TableQuery.Decimal
