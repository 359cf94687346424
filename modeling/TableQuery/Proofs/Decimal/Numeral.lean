import Mathlib.Data.List.TakeWhile
import TableQuery.Decimal.Text
import TableQuery.Proofs.Decimal.Order
import TableQuery.Proofs.Text.Digits

/-!
# Numerals and the decimals that they write

A numeral without a sign of its own consists of digits, of digits behind a point and of an exponent,
of which the last two may be missing. Reading one gives its digits at the scale that the point and
the exponent make.
-/

namespace TableQuery.Decimal

/-- How the sign of an exponent is written. -/
inductive ExponentSign where
  | bare
  | plus
  | minus

/-- The exponent of a numeral. -/
structure Exponent where
  sign : ExponentSign
  magnitude : Nat

/-- The parts of a numeral. -/
structure Numeral where
  whole : List Char
  fraction : List Char
  exponent : Option Exponent
  whole_ne_nil : whole ≠ []
  whole_digits : whole.all Char.isDigit
  fraction_digits : fraction.all Char.isDigit

/-- The sign as it is written. -/
def ExponentSign.text : ExponentSign → List Char
  | .bare => []
  | .plus => ['+']
  | .minus => ['-']

namespace Exponent

/-- The exponent as it is written behind its mark. -/
def text (x : Exponent) : List Char :=
  x.sign.text ++ Text.digits x.magnitude

/-- The exponent as a number. -/
def value (x : Exponent) : Int :=
  match x.sign with
  | .minus => -x.magnitude
  | _ => x.magnitude

/-- The exponent of a number; `positive` is the sign where there is no minus sign. -/
def ofInt (positive : ExponentSign) (n : Int) : Exponent :=
  ⟨if n < 0 then .minus else positive, n.natAbs⟩

/-- The exponent that is made of an integer has its value. -/
lemma value_ofInt {positive : ExponentSign} (h : positive ≠ .minus) (n : Int) :
    (ofInt positive n).value = n := by
  unfold ofInt value
  by_cases hn : n < 0
  · simp only [if_pos hn]
    omega
  · simp only [if_neg hn]
    omega

end Exponent

namespace Numeral

/-- The point and the digits behind it, if there are any. -/
def fractionText (n : Numeral) : List Char :=
  if n.fraction.isEmpty then [] else '.' :: n.fraction

/-- The exponent behind a mark, if there is one. -/
def exponentText (mark : Char) (n : Numeral) : List Char :=
  n.exponent.elim [] fun x => mark :: x.text

/-- A numeral as it is written, with a mark before its exponent. -/
def text (mark : Char) (n : Numeral) : List Char :=
  n.whole ++ (n.fractionText ++ n.exponentText mark)

/-- The scale of the number that a numeral writes. -/
def scale (n : Numeral) : Int :=
  n.fraction.length - n.exponent.elim 0 Exponent.value

/-- The digits of a numeral as a number. -/
def coefficient (n : Numeral) : Nat :=
  Text.digitsValue (n.whole ++ n.fraction)

end Numeral

/-- A text with a character of a kind is split before it. -/
lemma splitFirst_append {p : Char → Bool} {s : List Char} {c : Char} (rest : List Char)
    (hs : ∀ a ∈ s, p a = false) (hc : p c = true) :
    splitFirst p (s ++ c :: rest) = (s, some rest) := by
  have h : ∀ a ∈ s, (!p a) = true := by
    intro a ha
    rw [hs a ha]
    rfl
  unfold splitFirst
  rw [List.dropWhile_append_of_pos h, List.takeWhile_append_of_pos h]
  simp [hc]

/-- A text without a character of a kind is not split. -/
lemma splitFirst_eq_self {p : Char → Bool} {s : List Char} (hs : ∀ a ∈ s, p a = false) :
    splitFirst p s = (s, none) := by
  have h : s.dropWhile (fun c => !p c) = [] := by
    rw [List.dropWhile_eq_nil_iff]
    intro a ha
    rw [hs a ha]
    rfl
  unfold splitFirst
  rw [h]

/-- A character that is no digit does not occur in digits. -/
lemma not_mem_digits {s : List Char} (hs : s.all Char.isDigit) {c : Char} (hc : c.isDigit = false) :
    c ∉ s := by
  intro hm
  have := List.all_eq_true.1 hs c hm
  rw [hc] at this
  cases this

/-- Digits are not set apart. -/
lemma filter_digits {s : List Char} (hs : s.all Char.isDigit) : s.filter (· ≠ '_') = s := by
  apply List.filter_eq_self.2
  intro c hc
  have : c ≠ '_' := fun e => not_mem_digits hs (by decide) (e ▸ hc)
  exact decide_eq_true this

/-- Digits do not begin with another character. -/
lemma head?_digits {s : List Char} (hs : s.all Char.isDigit) {c : Char} (hc : c.isDigit = false) :
    s.head? ≠ some c := by
  intro he
  exact not_mem_digits hs hc (List.mem_of_head? he)

/-- Digits are read as their value. -/
lemma intOfSpaced?_digits {s : List Char} (hne : s ≠ []) (hs : s.all Char.isDigit) :
    intOfSpaced? s = some (Text.digitsValue s : Int) := by
  unfold intOfSpaced?
  split
  next => exact absurd rfl (head?_digits hs (c := '-') (by decide))
  next => exact absurd rfl (head?_digits hs (c := '+') (by decide))
  next =>
    rw [natOfSpaced?, if_neg (head?_digits hs (by decide)), filter_digits hs,
      Text.natOfDigits?_eq_some hne hs]
    rfl

/-- An exponent is read as its value. -/
lemma intOfDigits?_exponent (x : Exponent) : Text.intOfDigits? x.text = some x.value := by
  obtain ⟨sign, n⟩ := x
  cases sign with
  | bare =>
    have hd := Text.all_isDigit_digits n
    have h := Text.intOfDigits?_of_head (head?_digits hd (by decide)) (head?_digits hd (by decide))
    rw [Text.natOfDigits?_digits] at h
    exact h
  | plus =>
    rw [Exponent.text, ExponentSign.text, List.singleton_append, Text.intOfDigits?,
      Text.natOfDigits?_digits]
    rfl
  | minus =>
    rw [Exponent.text, ExponentSign.text, List.singleton_append, Text.intOfDigits?,
      Text.natOfDigits?_digits]
    rfl

/-- A character other than a point and a digit does not stand before an exponent. -/
lemma not_mem_base (n : Numeral) {c : Char} (hc : c.isDigit = false) (hp : c ≠ '.') :
    c ∉ n.whole ++ n.fractionText := by
  rw [List.mem_append, not_or]
  refine ⟨not_mem_digits n.whole_digits hc, ?_⟩
  unfold Numeral.fractionText
  split
  next => exact List.not_mem_nil
  next =>
    rw [List.mem_cons, not_or]
    exact ⟨hp, not_mem_digits n.fraction_digits hc⟩

/-- A numeral is split before its exponent. -/
lemma splitFirst_exponent {mark : Char} (hm : mark = 'e' ∨ mark = 'E') (n : Numeral) :
    splitFirst (fun c => c == 'e' || c == 'E') (n.text mark)
      = (n.whole ++ n.fractionText, n.exponent.map Exponent.text) := by
  have base : ∀ a ∈ n.whole ++ n.fractionText, (a == 'e' || a == 'E') = false := by
    intro a ha
    rw [Bool.or_eq_false_iff, beq_eq_false_iff_ne, beq_eq_false_iff_ne]
    constructor
    · rintro rfl
      exact not_mem_base n (by decide) (by decide) ha
    · rintro rfl
      exact not_mem_base n (by decide) (by decide) ha
  unfold Numeral.text Numeral.exponentText
  rw [← List.append_assoc]
  cases n.exponent with
  | none =>
    rw [Option.elim_none, List.append_nil]
    exact splitFirst_eq_self base
  | some x =>
    apply splitFirst_append _ base
    rcases hm with rfl | rfl <;> rfl

/-- The part of a numeral before its exponent is split at its point. -/
lemma splitFirst_point (n : Numeral) :
    ∃ f, splitFirst (· == '.') (n.whole ++ n.fractionText) = (n.whole, f)
      ∧ f.getD [] = n.fraction := by
  have whole : ∀ a ∈ n.whole, (a == '.') = false := by
    intro a ha
    rw [beq_eq_false_iff_ne]
    rintro rfl
    exact not_mem_digits n.whole_digits (by decide) ha
  unfold Numeral.fractionText
  split
  next h =>
    rw [List.append_nil, splitFirst_eq_self whole]
    exact ⟨none, rfl, (List.isEmpty_iff.1 h).symm⟩
  next => exact ⟨some n.fraction, splitFirst_append _ whole rfl, rfl⟩

/-- Reading a numeral gives its digits at its scale. -/
lemma ofChars?_numeral {mark : Char} (hm : mark = 'e' ∨ mark = 'E') (n : Numeral) :
    ofChars? (n.text mark) = (Text.int64? n.scale).map fun s => ⟨n.coefficient, s⟩ := by
  obtain ⟨f, hf, hfraction⟩ := splitFirst_point n
  have exponent : (n.exponent.map Exponent.text).elim (some 0) Text.intOfDigits?
      = some (n.exponent.elim 0 Exponent.value) := by
    cases n.exponent with
    | none => rfl
    | some x => exact intOfDigits?_exponent x
  have digits : intOfSpaced? (n.whole ++ n.fraction) = some (n.coefficient : Int) := by
    apply intOfSpaced?_digits
    · exact List.append_ne_nil_of_left_ne_nil n.whole_ne_nil _
    · rw [List.all_append, n.whole_digits, n.fraction_digits]
      rfl
  unfold ofChars?
  rw [splitFirst_exponent hm]
  simp only [exponent, hf, hfraction, digits, filter_digits n.fraction_digits, Option.bind_eq_bind,
    Option.bind_some]
  rw [Numeral.scale]
  cases Text.int64? _ <;> rfl

end TableQuery.Decimal
