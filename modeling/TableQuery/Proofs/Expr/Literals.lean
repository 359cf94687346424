import TableQuery.Expr.Printer
import TableQuery.Proofs.Decimal.RoundTrip
import TableQuery.Proofs.Expr.Grammar
import TableQuery.Proofs.Expr.Lexing

/-!
# The text of a literal

A literal that is no negative number is written as one token, which is read as the same literal. A
decimal is never written as a numeral that would be read as an integer.
-/

namespace TableQuery

namespace Decimal

/-- The text of a natural number is its digits. -/
lemma Numeral.text_ofNat (k : Nat) (mark : Char) : (Numeral.ofNat k).text mark = Text.digits k :=
  List.append_nil _

/-- A numeral that is read as a number of digits alone has no fraction and no exponent. -/
lemma Numeral.eq_digits_of_natOfDigits? {n : Numeral} {mark : Char} (hm : mark = 'e' ∨ mark = 'E')
    {k : Nat} (h : Text.natOfDigits? (n.text mark) = some k) :
    n.fraction = [] ∧ n.exponent = none := by
  have hdigits := List.all_eq_true.1 (Text.all_isDigit_of_natOfDigits? h)
  unfold text at hdigits
  constructor
  · cases hf : n.fraction with
    | nil => rfl
    | cons c r =>
      have hpoint : ('.' : Char) ∈ n.whole ++ (n.fractionText ++ n.exponentText mark) := by
        simp [fractionText, hf]
      exact absurd (hdigits _ hpoint) (by decide)
  · cases hx : n.exponent with
    | none => rfl
    | some x =>
      have hmark : mark ∈ n.whole ++ (n.fractionText ++ n.exponentText mark) := by
        simp [exponentText, hx]
      have := hdigits _ hmark
      rcases hm with rfl | rfl <;> exact absurd this (by decide)

/-- A numeral has no sign. -/
lemma Numeral.intOfDigits?_text (n : Numeral) (mark : Char) :
    Text.intOfDigits? (n.text mark)
      = (Text.natOfDigits? (n.text mark)).map fun k : Nat => (k : Int) := by
  have hhead : (n.text mark).head? = n.whole.head? := List.head?_append_of_ne_nil _ n.whole_ne_nil
  apply Text.intOfDigits?_of_head <;> rw [hhead]
  · exact head?_digits n.whole_digits (by decide)
  · exact head?_digits n.whole_digits (by decide)

/-- A numeral is read as an integer only if it is written with digits alone. -/
lemma Numeral.eq_digits_of_int64OfDigits? {n : Numeral} {mark : Char}
    (hm : mark = 'e' ∨ mark = 'E') {k : Int64}
    (h : Text.int64OfDigits? (n.text mark) = some k) : n.fraction = [] ∧ n.exponent = none := by
  unfold Text.int64OfDigits? at h
  obtain ⟨_, hint, _⟩ := Option.bind_eq_some_iff.1 h
  rw [intOfDigits?_text] at hint
  obtain ⟨_, hnat, _⟩ := Option.map_eq_some_iff.1 hint
  exact eq_digits_of_natOfDigits? hm hnat

/-- A numeral without a fraction and an exponent is written with digits alone. -/
lemma Numeral.text_eq_whole {n : Numeral} (h : n.fraction = [] ∧ n.exponent = none)
    (mark : Char) : n.text mark = n.whole := by
  unfold text fractionText exponentText
  rw [h.1, h.2]
  exact List.append_nil _

/-- A whole number is written with digits behind its sign. -/
lemma toList_intText (n : Int) :
    (Text.intText n).toList = (Exponent.ofInt .bare n).text := by
  unfold Text.intText Exponent.ofInt Exponent.text
  split
  next => rw [String.toList_ofList]; rfl
  next => rw [String.toList_ofList]; rfl

/-- A whole number that is not negative is written with digits alone. -/
lemma toList_intText_of_nonneg {n : Int} (h : 0 ≤ n) :
    (Text.intText n).toList = Text.digits n.natAbs := by
  unfold Text.intText
  rw [if_neg (by omega), String.toList_ofList]

/-- A decimal that is not negative is written as a numeral of its number that is not read as an
integer. -/
lemma literalText_eq_text {d : Decimal} (hd : 0 ≤ d.coefficient) :
    ∃ (n : Numeral) (mark : Char), (mark = 'e' ∨ mark = 'E') ∧ d.literalText.toList = n.text mark
      ∧ n.Writes d ∧ Text.int64OfDigits? (n.text 'E') = none := by
  have e : (⟨d.coefficient.natAbs, d.scale⟩ : Decimal) = d := by
    rw [Int.natAbs_of_nonneg hd]
  unfold literalText
  dsimp only
  split
  next h =>
    obtain ⟨n, mark, hm, htext, hn⟩ := toList_text_of_nonneg hd
    refine ⟨n, mark, hm, htext, hn, ?_⟩
    rw [Option.eq_none_iff_forall_ne_some]
    intro k hk
    -- a numeral that is an integer is digits alone, and has none of the characters looked for
    have hwhole := n.text_eq_whole (Numeral.eq_digits_of_int64OfDigits? (.inr rfl) hk)
    rw [hwhole] at hk
    rw [htext, hwhole, hk, Option.isNone_some, Bool.or_false, List.any_eq_true] at h
    obtain ⟨c, hc, hmark⟩ := h
    have hdigit := List.all_eq_true.1 n.whole_digits c hc
    simp only [Bool.or_eq_true, beq_iff_eq] at hmark
    rcases hmark with (rfl | rfl) | rfl <;> exact absurd hdigit (by decide)
  next =>
    -- the text would be an integer, so that the coefficient is written with an exponent instead
    have hsign : ExponentSign.bare ≠ .minus := nofun
    refine ⟨.ofDigits d.coefficient.natAbs (.ofInt .bare (-d.scale.toInt)), 'E', .inr rfl,
      ?_, ?_, ?_⟩
    · rw [String.toList_append, String.toList_append, toList_intText_of_nonneg hd, toList_intText,
        List.append_assoc]
      rfl
    · exact e ▸ Numeral.ofDigits_writes (Exponent.value_ofInt hsign _)
    · rw [Option.eq_none_iff_forall_ne_some]
      intro k hk
      exact nomatch (Numeral.eq_digits_of_int64OfDigits? (.inr rfl) hk).2

end Decimal

/-- A literal that is no negative number. -/
def Literal.WellFormed : Literal → Prop
  | .int n => 0 ≤ n.toInt
  | .decimal d => 0 ≤ d.coefficient
  | _ => True

open Grammar

/-- A literal spells the token of the same literal. -/
lemma Literal.renders {l : Literal} (h : l.WellFormed) :
    ∃ ts l', Spells closes l.text.toList ts ∧ Derives 7 ts (.literal l') ∧ l.same l' = true := by
  cases l with
  | string s =>
    exact ⟨_, _, (spells_quoted s).mono fun _ _ => rfl, .string, beq_self_eq_true s⟩
  | int n =>
    have htext : (Literal.int n).text.toList = (Decimal.Numeral.ofNat n.toInt.natAbs).text 'E' := by
      rw [Literal.text, Decimal.toList_intText_of_nonneg h, Decimal.Numeral.text_ofNat]
    have hread : Text.int64OfDigits? ((Decimal.Numeral.ofNat n.toInt.natAbs).text 'E') = some n := by
      rw [Text.int64OfDigits?, Decimal.Numeral.intOfDigits?_text, Decimal.Numeral.text_ofNat,
        Text.natOfDigits?_digits, Option.map_some, Option.bind_some]
      exact Text.int64?_eq_some_iff.2 (Int.natAbs_of_nonneg h).symm
    have hderives : Derives 7 [.number (String.ofList
        ((Decimal.Numeral.ofNat n.toInt.natAbs).text 'E'))] (.literal (.int n)) := by
      apply Derives.number
      rw [Literal.ofNumeral?, String.toList_ofList, hread]
    exact ⟨_, _, htext ▸ spells_numeral _ (.inr rfl), hderives, beq_self_eq_true n⟩
  | decimal d =>
    obtain ⟨n, mark, hm, htext, hn, hint⟩ := Decimal.literalText_eq_text h
    obtain ⟨s, hread, hvalue, _⟩ := Decimal.ofChars?_of_writes hn (.inr rfl)
    have hderives : Derives 7 [.number (String.ofList (n.text 'E'))]
        (.literal (.decimal ⟨n.coefficient, s⟩)) := by
      apply Derives.number
      rw [Literal.ofNumeral?, String.toList_ofList, hint, Decimal.ofText?, String.toList_ofList,
        hread]
      rfl
    refine ⟨_, _, ?_, hderives, Decimal.same_iff.2 hvalue.symm⟩
    rw [Literal.text, htext]
    exact spells_numeral n hm
  | bool b =>
    cases b with
    | true => exact ⟨_, _, (spells_keyword .true).mono fun _ => not_isPart_of_closes, .true, rfl⟩
    | false => exact ⟨_, _, (spells_keyword .false).mono fun _ => not_isPart_of_closes, .false, rfl⟩
  | null => exact ⟨_, _, (spells_keyword .null).mono fun _ => not_isPart_of_closes, .null, rfl⟩

end TableQuery
