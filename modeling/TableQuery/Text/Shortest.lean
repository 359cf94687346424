/-!
# Shortest decimals

The decimal with the fewest digits that rounds to a given binary fraction, in exact arithmetic.
-/

namespace TableQuery.Text

/-- The binary fraction `significand` × 2^`exponent`. `lowest` tells that the next smaller fraction
is only half as far away as the next larger one. -/
structure Binary where
  significand : Nat
  exponent : Int
  lowest : Bool

/-- The fraction of the bits of a finite double, without its sign. -/
def Binary.ofBits (bits : Nat) : Binary :=
  let hidden : Nat := 0x10000000000000
  let field := bits / hidden % 0x800
  let fraction := bits % hidden
  if field = 0 then ⟨fraction, -1074, false⟩
  else ⟨hidden + fraction, (field : Int) - 1075, fraction = 0 && field > 1⟩

/-- The number of digits before the point of `n / d`, negative for zeros after the point. -/
def leadingPlace (n d : Nat) : Int :=
  let digits (k : Nat) : Int := (Nat.toDigits 10 k).length
  let guess := digits n - digits d
  if d * Nat.pow 10 guess.toNat ≤ n * Nat.pow 10 (-guess).toNat then guess + 1 else guess

/-- The multiple of 10^`place` next to the fraction that rounds to it, if one does; of two that are
equally near, the even one. -/
def Binary.onGrid? (x : Binary) (place : Int) : Option Nat :=
  let up := Nat.pow 2 (x.exponent - 2).toNat * Nat.pow 10 (-place).toNat
  let down := Nat.pow 2 (2 - x.exponent).toNat * Nat.pow 10 place.toNat
  let value := 4 * x.significand * up
  let low := (4 * x.significand - if x.lowest then 1 else 2) * up
  let high := (4 * x.significand + 2) * up
  let even := x.significand % 2 = 0
  let inside (c : Nat) : Bool :=
    if even then low ≤ c * down && c * down ≤ high else low < c * down && c * down < high
  let below := value / down
  let above := below + 1
  match inside below, inside above with
  | true, true =>
    match compare (value - below * down) (above * down - value) with
    | .lt => some below
    | .eq => some (if below % 2 = 0 then below else above)
    | .gt => some above
  | true, false => some below
  | false, true => some above
  | false, false => none

/-- The shortest decimal as its digits and the place of the last one, among those of `k` to 17
digits. Only a single digit can round up to a further place. -/
def Binary.shortestFrom (x : Binary) (lead : Int) (k : Nat) : Nat × Int :=
  match x.onGrid? (lead - k) with
  | some c => if c = 10 then (1, lead) else (c, lead - k)
  | none => if k < 17 then x.shortestFrom lead (k + 1) else (0, 0)
termination_by 17 - k

/-- The digits and the last place of the shortest decimal that rounds to a fraction. -/
def Binary.shortest (x : Binary) : Nat × Int :=
  if x.significand = 0 then (0, 0)
  else
    let numerator := x.significand * Nat.pow 2 x.exponent.toNat
    let lead := leadingPlace numerator (Nat.pow 2 (-x.exponent).toNat)
    x.shortestFrom lead 1

end TableQuery.Text
