import TableQuery.Proofs.Expr.RoundTrip

/-!
# What parsing gives

The tokens of a text are words that are no keywords, and numerals without a sign, so that every
expression that is parsed is one that its text can be parsed as.
-/

namespace TableQuery

/-- A token that the lexer can give: an identifier is one, and a numeral is not negative. -/
def Token.WellFormed : Token → Prop
  | .identifier name => Word.isIdentifier name.toList = true
  | .number numeral => ∀ l, Literal.ofNumeral? numeral = some l → l.WellFormed
  | _ => True

section Numerals

/-- A numeral that begins with a digit is not read as a negative integer. -/
lemma int64OfDigits?_nonneg {c : Char} (hc : c.isDigit = true) {s : List Char} {n : Int64}
    (h : Text.int64OfDigits? (c :: s) = some n) : 0 ≤ n.toInt := by
  have hm : (c :: s).head? ≠ some '-' := by
    rintro ⟨⟩
    exact absurd hc (by decide)
  have hp : (c :: s).head? ≠ some '+' := by
    rintro ⟨⟩
    exact absurd hc (by decide)
  rw [Text.int64OfDigits?_eq_some_iff, Text.intOfDigits?_of_head hm hp] at h
  obtain ⟨m, _, hm⟩ := Option.map_eq_some_iff.1 h
  rw [← hm]
  exact Int.natCast_nonneg m

/-- A text that begins with a digit is not read as a negative coefficient. -/
lemma intOfSpaced?_nonneg {c : Char} (hc : c.isDigit = true) {s : List Char} {n : Int}
    (h : Decimal.intOfSpaced? (c :: s) = some n) : 0 ≤ n := by
  unfold Decimal.intOfSpaced? at h
  split at h
  next e =>
    cases e
    exact absurd hc (by decide)
  next e =>
    cases e
    exact absurd hc (by decide)
  next =>
    obtain ⟨_, hn, rfl⟩ := Option.map_eq_some_iff.1 h
    obtain ⟨k, _, hk⟩ := Option.bind_eq_some_iff.1 hn
    cases hk
    exact Int.natCast_nonneg k

/-- A numeral that begins with a digit is not read as a negative decimal. -/
lemma ofChars?_nonneg {c : Char} (hc : c.isDigit = true) {s : List Char} {d : Decimal}
    (h : Decimal.ofChars? (c :: s) = some d) : 0 ≤ d.coefficient := by
  have hmark : (c == 'e' || c == 'E') = false := by
    rw [Bool.or_eq_false_iff, beq_eq_false_iff_ne, beq_eq_false_iff_ne]
    constructor <;> rintro rfl <;> exact absurd hc (by decide)
  have hpoint : (c == '.') = false := by
    rw [beq_eq_false_iff_ne]
    rintro rfl
    exact absurd hc (by decide)
  unfold Decimal.ofChars? at h
  rw [Decimal.splitFirst_cons hmark] at h
  dsimp only at h
  rw [Decimal.splitFirst_cons (p := (· == '.')) hpoint] at h
  obtain ⟨_, _, h⟩ := Option.bind_eq_some_iff.1 h
  obtain ⟨n, hn, h⟩ := Option.bind_eq_some_iff.1 h
  obtain ⟨_, _, h⟩ := Option.bind_eq_some_iff.1 h
  cases h
  exact intOfSpaced?_nonneg hc hn

/-- The literal that a numeral with a digit in front writes is not negative. -/
lemma wellFormed_of_ofNumeral? {c : Char} (hc : c.isDigit = true) {s : List Char} {l : Literal}
    (h : Literal.ofNumeral? (String.ofList (c :: s)) = some l) : l.WellFormed := by
  rw [Literal.ofNumeral?, String.toList_ofList] at h
  split at h
  next hint =>
    cases h
    exact int64OfDigits?_nonneg hc hint
  next =>
    obtain ⟨d, hd, rfl⟩ := Option.map_eq_some_iff.1 h
    rw [Decimal.ofText?, String.toList_ofList] at hd
    exact ofChars?_nonneg hc hd

end Numerals

/-- A word that is no keyword is an identifier. -/
lemma wellFormed_ofWord {c : Char} (hc : Word.isStart c = true) {s : List Char}
    (hs : s.all Word.isPart = true) : (Token.ofWord (c :: s)).WellFormed := by
  unfold Token.ofWord
  split
  next => trivial
  next hk =>
    change Word.isIdentifier (String.ofList (c :: s)).toList = true
    rw [String.toList_ofList, Word.isIdentifier, hk, List.head?_cons, Option.any_some, hc,
      List.all_cons, Word.isPart_of_isStart hc, hs]
    rfl

/-- The token at the front of a text can be one. -/
lemma wellFormed_of_read {c : Char} {s rest : List Char} {t : Token}
    (h : Token.read c s = .ok (t, rest)) : t.WellFormed := by
  cases readFrom_of_read h with
  | symbol hmem =>
    have plain : ∀ p ∈ Token.symbols, p.2.WellFormed := by
      simp [Token.symbols, Token.WellFormed]
    exact plain _ hmem
  | string => trivial
  | numeral hdigit =>
    intro l hl
    rw [Numeral.read, List.takeWhile_cons_of_pos hdigit] at hl
    exact wellFormed_of_ofNumeral? hdigit hl
  | word hstart => exact wellFormed_ofWord hstart List.all_takeWhile

/-- The tokens of a text can be ones. -/
lemma wellFormed_of_lexes {s : List Char} {ts : List Token} (h : Lexes s ts) :
    ∀ t ∈ ts, t.WellFormed := by
  induction h with
  | nil => exact nofun
  | blank _ _ ih => exact ih
  | token _ hread _ ih => exact List.forall_mem_cons.2 ⟨wellFormed_of_read hread, ih⟩

open Grammar

/-- An expression that is derived from tokens of a text can be parsed from its own. -/
lemma Grammar.Derives.wellFormed {k : Nat} {ts : List Token} {e : Expr} (h : Derives k ts e)
    (hts : ∀ t ∈ ts, t.WellFormed) : e.WellFormed := by
  induction h using Derives.rec (motive_2 := fun ts args _ =>
    (∀ t ∈ ts, t.WellFormed) → Expr.AllWellFormed args) with
  | tighter _ ih => exact ih hts
  | or _ _ iha ihb | and _ _ iha ihb | compare _ _ iha ihb | is _ _ iha ihb | arith _ _ iha ihb =>
    rw [List.forall_mem_append, List.forall_mem_cons] at hts
    exact ⟨iha hts.1, ihb hts.2.2⟩
  | isNot _ _ iha ihb =>
    rw [List.forall_mem_append, List.forall_mem_cons, List.forall_mem_cons] at hts
    exact ⟨iha hts.1, ihb hts.2.2.2⟩
  | not _ ih | neg _ ih =>
    rw [List.forall_mem_cons] at hts
    exact ih hts.2
  | group _ ih =>
    rw [List.cons_append, List.forall_mem_cons, List.forall_mem_append] at hts
    exact ih hts.2.1
  | number hl =>
    rw [List.forall_mem_singleton] at hts
    exact hts _ hl
  | name _ =>
    rw [List.forall_mem_cons] at hts
    exact ⟨_, _, rfl, hts.1⟩
  | constant =>
    rw [List.forall_mem_cons] at hts
    exact ⟨hts.1, trivial⟩
  | call _ ih =>
    rw [List.cons_append, List.cons_append, List.forall_mem_cons, List.forall_mem_cons,
      List.forall_mem_append] at hts
    exact ⟨hts.1, ih hts.2.2.1⟩
  | last _ ih h => exact ⟨ih h, trivial⟩
  | more _ _ ih ihs h =>
    rw [List.forall_mem_append, List.forall_mem_cons] at h
    exact ⟨ih h.1, ihs h.2.2⟩
  | _ => trivial

/-- A text is parsed as the expression that the grammar derives from its tokens. -/
lemma Expr.parse_eq_ok_iff {text : String} {e : Expr} :
    Expr.parse text = .ok e ↔ ∃ ts, Lexes text.toList ts ∧ Derives 1 ts e := by
  unfold Expr.parse parseChars tokens
  constructor
  · intro h
    obtain ⟨sp, hsp, h⟩ := bind_eq_ok_iff.1 h
    cases hwhole : Parser.whole sp with
    | error f =>
      rw [hwhole] at h
      cases h
    | ok e' =>
      rw [hwhole] at h
      cases h
      exact ⟨_, lexes_of_readAll hsp, Parser.whole_eq_ok_iff.1 hwhole⟩
  · rintro ⟨ts, hts, he⟩
    obtain ⟨sp, hsp, rfl⟩ := readAll_of_lexes hts rfl
    rw [hsp]
    change (Parser.whole sp).mapError _ = .ok e
    rw [Parser.whole_eq_ok_iff.2 he]
    rfl

/-- An expression that is parsed can be parsed from its own text. -/
lemma Expr.wellFormed_of_parse {text : String} {e : Expr} (h : Expr.parse text = .ok e) :
    e.WellFormed := by
  obtain ⟨ts, hts, he⟩ := Expr.parse_eq_ok_iff.1 h
  exact he.wellFormed (wellFormed_of_lexes hts)

/-- The text of an expression is parsed as the same expression if it can be parsed at all, and every
expression that is parsed is one whose text can. -/
theorem Expr.parse_text :
    (∀ e : Expr, e.WellFormed → ∃ e', Expr.parse e.text = .ok e' ∧ e.same e' = true)
      ∧ ∀ text e, Expr.parse text = .ok e → e.WellFormed := by
  constructor
  · intro e h
    obtain ⟨ts, e', hts, he, hsame⟩ := (Expr.renders e h).loosen (Expr.tightness_pos e)
    exact ⟨e', Expr.parse_eq_ok_iff.2 ⟨ts, hts.lexes, he⟩, hsame⟩
  · intro text e h
    obtain ⟨ts, hts, he⟩ := Expr.parse_eq_ok_iff.1 h
    exact he.wellFormed (wellFormed_of_lexes hts)

/-- An operand that needs parentheses, a key that needs quotes, and a decimal that needs an exponent
to be told from an integer. -/
theorem Expr.parse_text_grouped :
    let e : Expr := .compare .lt (.not (.name ⟨[.key "a", .key "b c"]⟩))
      (.neg (.literal (.decimal ⟨5, 0⟩)))
    e.WellFormed ∧ ∃ e', Expr.parse e.text = .ok e' ∧ e.same e' = true ∧ e'.WellFormed := by
  intro e
  have h : e.WellFormed := ⟨⟨"a", _, rfl, by decide⟩, (by decide : (0 : Int) ≤ 5)⟩
  obtain ⟨e', hparse, hsame⟩ := Expr.parse_text.1 e h
  exact ⟨h, e', hparse, hsame, Expr.parse_text.2 _ e' hparse⟩

end TableQuery
