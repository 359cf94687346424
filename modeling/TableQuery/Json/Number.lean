import TableQuery.Decimal.Text
import TableQuery.Text.Shortest

/-!
# Numbers of JSON

What a number of a JSON text is read as: a machine integer where it is written as one and fits, and
else the double that its first digits and its exponent give.
-/

namespace TableQuery.Json

/-- What a number is read as. -/
inductive Numeric where
  | integer (n : Int)
  | double (x : Float)
  /-- beyond the largest double -/
  | tooLarge

namespace Numeric

/-- The number is beyond the largest double. -/
def isTooLarge : Numeric → Bool
  | .tooLarge => true
  | _ => false

/-- The largest significand. -/
def maxSignificand : Nat := 0xFFFFFFFFFFFFFFFF

/-- Takes digits into a significand while it stays small enough; then also how many are left. -/
def take (significand : Nat) : List Char → Nat × Nat
  | [] => (significand, 0)
  | c :: rest =>
    let next := significand * 10 + Text.digitValue c
    if next ≤ maxSignificand then take next rest else (significand, rest.length + 1)

/-- A significand times a power of ten, by one rounded multiplication or division per 308 places. -/
def scaled (significand : Float) (exponent : Int) : Option Float :=
  if exponent ≥ 0 then
    if exponent > 308 then if significand == 0 then some significand else none
    else
      let x := significand * Float.ofScientific 1 false exponent.toNat
      if x.isInf then none else some x
  else if exponent ≥ -308 then some (significand / Float.ofScientific 1 false (-exponent).toNat)
  else if significand == 0 then some significand
  else scaled (significand / Float.ofScientific 1 false 308) (exponent + 308)
termination_by (-exponent).toNat

/-- The integer of a sign and a significand, if it is a machine integer of either kind. -/
def ofSignificand? (negative : Bool) (significand : Nat) : Option Int :=
  if !negative then some significand
  else if 0 < significand ∧ significand ≤ 0x8000000000000000 then some (-(significand : Int))
  else none

/-- The double of a sign, a significand and a power of ten. -/
def ofParts (negative : Bool) (significand : Nat) (exponent : Int) : Numeric :=
  match scaled (Float.ofNat significand) exponent with
  | some x => .double (if negative then -x else x)
  | none => .tooLarge

/-- Reads a number that is written as JSON writes numbers. -/
def ofNumeral (numeral : String) : Numeric :=
  let s := numeral.toList
  let (negative, s) := match s with
    | '-' :: s => (true, s)
    | s => (false, s)
  let isExponent (c : Char) : Bool := c == 'e' || c == 'E'
  let (base, exponentPart) := Decimal.splitFirst isExponent s
  let (whole, fractionPart) := Decimal.splitFirst (· == '.') base
  let (significand, skipped) := take 0 whole
  if fractionPart.isNone ∧ exponentPart.isNone ∧ skipped = 0 then
    match ofSignificand? negative significand with
    | some n => .integer n
    | none => ofParts negative significand 0
  else
    let fraction := fractionPart.getD []
    let (significand, dropped) := take significand fraction
    let places := (fraction.length : Int) - dropped
    let exponent := (exponentPart.bind Text.intOfDigits?).getD 0
    if exponent.natAbs < 0x80000000 then ofParts negative significand (skipped - places + exponent)
    else if significand ≠ 0 ∧ exponent > 0 then .tooLarge
    else ofParts negative 0 0

/-- The powers of ten of the first digit for which a double is written without an exponent. -/
def isPlain (exponent : Int) : Bool :=
  -5 ≤ exponent && exponent ≤ 15

/-- The text of the digits `ds`, of which the last has the place `place`, with a point or an
exponent in it. -/
def unsignedText (ds : List Char) (place : Int) : List Char :=
  let exponent := ds.length - 1 + place
  if !isPlain exponent then Decimal.scientific 'e' ds exponent
  else Decimal.plain ds (-place) ++ if place ≥ 0 then ['.', '0'] else []

/-- The text of a double. -/
def doubleText (x : Float) : String :=
  let signBit : Nat := 0x8000000000000000
  let bits := x.toBits.toNat
  let (digits, place) := (Text.Binary.ofBits (bits % signBit)).shortest
  let sign := if bits ≥ signBit then ['-'] else []
  String.ofList (sign ++ unsignedText (Text.digits digits) place)

end Numeric

end TableQuery.Json
