import TableQuery.Proofs.Expr.Acceptance
import TableQuery.Proofs.Expr.Lexing

/-!
# The language of expressions

The parser takes tokens for an expression exactly if the grammar has them as that expression. The
numerals in them are said by their digits: as a literal, an integer where one fits and a decimal
else, and in brackets, an index.
-/

namespace TableQuery

namespace Grammar

/-- The literal that a numeral writes: an integer if it is one, and a decimal only if it is none. -/
inductive Writes : String → Literal → Prop where
  | int {numeral} {n : Int64} :
    Text.intOfDigits? numeral.toList = some n.toInt →
    Writes numeral (.int n)
  | decimal {numeral d} :
    (∀ n : Int64, Text.intOfDigits? numeral.toList ≠ some n.toInt) →
    Decimal.ofText? numeral = some d →
    Writes numeral (.decimal d)

/-- The index that characters write: their digits, which a plus sign may stand before. -/
inductive Indexes : List Char → UInt64 → Prop where
  | digits {s} {i : UInt64} :
    Text.natOfDigits? s = some i.toNat →
    Indexes s i
  | plus {s} {i : UInt64} :
    Text.natOfDigits? s = some i.toNat →
    Indexes ('+' :: s) i

/-- A numeral is taken for the literal that it writes, and for no other. -/
lemma ofNumeral?_eq_some_iff {numeral : String} {l : Literal} :
    Literal.ofNumeral? numeral = some l ↔ Writes numeral l := by
  unfold Literal.ofNumeral?
  constructor
  · intro h
    split at h
    next n hn =>
      cases h
      exact .int (Text.int64OfDigits?_eq_some_iff.1 hn)
    next hnone =>
      obtain ⟨d, hd, rfl⟩ := Option.map_eq_some_iff.1 h
      refine .decimal (fun n hn => ?_) hd
      cases hnone.symm.trans (Text.int64OfDigits?_eq_some_iff.2 hn)
  · intro h
    cases h with
    | int hn => rw [Text.int64OfDigits?_eq_some_iff.2 hn]
    | decimal hnone hd =>
      cases hint : Text.int64OfDigits? numeral.toList with
      | some n => exact absurd (Text.int64OfDigits?_eq_some_iff.1 hint) (hnone n)
      | none => rw [hd, Option.map_some]

/-- Without a plus sign an index is written by its digits. -/
lemma indexes_iff_of_head {s : List Char} {i : UInt64} (hp : s.head? ≠ some '+') :
    Indexes s i ↔ Text.natOfDigits? s = some i.toNat := by
  constructor
  · intro h
    cases h with
    | digits h => exact h
    | plus _ => exact absurd rfl hp
  · exact .digits

/-- Characters are taken for the index that they write, and for no other. -/
lemma uint64OfDigits?_eq_some_iff {s : List Char} {i : UInt64} :
    Text.uint64OfDigits? s = some i ↔ Indexes s i := by
  by_cases hp : s.head? = some '+'
  · obtain ⟨s, rfl⟩ := List.head?_eq_some_iff.1 hp
    rw [Text.uint64OfDigits?, Text.bind_uint64?_eq_some_iff]
    constructor
    · exact .plus
    · intro h
      cases h with
      | plus h => exact h
      | digits h => cases List.all_eq_true.1 (Text.all_isDigit_of_natOfDigits? h) '+' (by simp)
  · rw [Text.uint64OfDigits?_of_head hp, Text.bind_uint64?_eq_some_iff, indexes_iff_of_head hp]

/-- There are no levels behind that of primaries. -/
lemma Derives.level_le {k : Nat} {ts : List Token} {e : Expr} (h : Derives k ts e) : k ≤ 7 := by
  induction h using Derives.rec (motive_2 := fun _ _ _ => True) with
  | tighter _ ih => exact Nat.le_of_succ_le ih
  | last _ _ | more _ _ _ _ => trivial
  | _ => decide

/-- A numeral that is a primary is a literal that it writes. -/
lemma derives_number_iff {numeral : String} {e : Expr} :
    Derives 7 [.number numeral] e ↔ ∃ l, Writes numeral l ∧ e = .literal l := by
  constructor
  · intro h
    generalize hts : [Token.number numeral] = ts at h
    cases h with
    | tighter h => exact absurd h.level_le (by decide)
    | number hl =>
      cases hts
      exact ⟨_, ofNumeral?_eq_some_iff.1 hl, rfl⟩
    | _ => cases hts
  · rintro ⟨l, hl, rfl⟩
    exact .number (ofNumeral?_eq_some_iff.2 hl)

/-- A numeral in brackets is a step with an index that it writes. -/
lemma isStep_number_iff {numeral : String} {step : Step} :
    IsStep [.openBracket, .number numeral, .closeBracket] step
      ↔ ∃ i, Indexes numeral.toList i ∧ step = .index i := by
  constructor
  · intro h
    cases h with
    | index hi => exact ⟨_, uint64OfDigits?_eq_some_iff.1 hi, rfl⟩
  · rintro ⟨i, hi, rfl⟩
    exact .index (uint64OfDigits?_eq_some_iff.2 hi)

/-- No tokens are two expressions. -/
theorem Derives.unique {ts : List Token} {e e' : Expr} (h : Derives 1 ts e)
    (h' : Derives 1 ts e') : e = e' := by
  -- the parser gives both of them, wherever the tokens are said to stand
  rw [← Parser.map_token_placed ts 0, ← Parser.whole_eq_ok_iff] at h h'
  cases h.symm.trans h'
  rfl

end Grammar

namespace Parser

open Grammar

/-- Tokens are parsed as an expression, all of them, exactly if the grammar has them as that
expression. A numeral is the literal that it writes or, in brackets, the index, and the index of a
numeral in a text is that of its digits alone. -/
theorem accepts_exactly_grammar (ts : List Spanned) (e : Expr) :
    (whole ts = .ok e ↔ Derives 1 (ts.map Spanned.token) e)
      ∧ (Reads (disjunction ts) e [] ↔ Derives 1 (ts.map Spanned.token) e)
      ∧ (∀ numeral a, Derives 7 [.number numeral] a ↔ ∃ l, Writes numeral l ∧ a = .literal l)
      ∧ (∀ numeral step, IsStep [.openBracket, .number numeral, .closeBracket] step
        ↔ ∃ i, Indexes numeral.toList i ∧ step = .index i)
      ∧ ∀ text numeral i, tokens text = .ok ts → .number numeral ∈ ts.map Spanned.token →
        (Indexes numeral.toList i ↔ Text.natOfDigits? numeral.toList = some i.toNat) := by
  refine ⟨whole_eq_ok_iff, whole_eq_ok_iff_reads.symm.trans whole_eq_ok_iff,
    fun _ _ => derives_number_iff, fun _ _ => isStep_number_iff, ?_⟩
  intro text numeral i hts hn
  -- a numeral of a text begins with a digit, and so with no plus sign
  obtain ⟨d, hd, hdigit⟩ := (lexes_of_readAll hts).isDigit_of_number hn
  apply indexes_iff_of_head
  intro hp
  cases hp.symm.trans hd
  exact absurd hdigit (by decide)

/-- An index with zeros in front of it, and a numeral that is no integer. -/
theorem accepts_exactly_grammar_index :
    let ts : List Spanned := [⟨.identifier "a", 0⟩, ⟨.openBracket, 1⟩, ⟨.number "007", 2⟩,
      ⟨.closeBracket, 5⟩, ⟨.compare .lt, 7⟩, ⟨.number "2.5", 9⟩]
    let e : Expr := .compare .lt (.name ⟨[.key "a", .index 7]⟩) (.literal (.decimal ⟨25, 1⟩))
    tokens "a[007] < 2.5".toList = .ok ts ∧ Indexes "007".toList 7 ∧ whole ts = .ok e := by
  intro ts e
  have htokens : tokens "a[007] < 2.5".toList = .ok ts := by decide +kernel
  obtain ⟨haccepts, -, hnumber, hstep, hindex⟩ := accepts_exactly_grammar ts e
  have hseven : Indexes "007".toList 7 := (hindex _ "007" 7 htokens (by decide)).2 (by decide)
  have hpath : Derives 7 [.identifier "a", .openBracket, .number "007", .closeBracket]
      (.name ⟨[.key "a", .index 7]⟩) :=
    .name (.cons ((hstep _ _).2 ⟨7, hseven, rfl⟩) .nil)
  have hnone : ∀ n : Int64, Text.intOfDigits? "2.5".toList ≠ some n.toInt := by
    intro n h
    cases h
  have hdecimal : Derives 7 [.number "2.5"] (.literal (.decimal ⟨25, 1⟩)) :=
    (hnumber _ _).2 ⟨_, .decimal hnone (by decide +kernel), rfl⟩
  have hcompare : Derives 4 (ts.map Spanned.token) e :=
    .compare (hpath.loosen (by decide)) (hdecimal.loosen (by decide))
  exact ⟨htokens, hseven, haccepts.2 (hcompare.loosen (by decide))⟩

end Parser

end TableQuery
