import TableQuery.Proofs.Expr.WellFormed
import TableQuery.Proofs.Term.Normal
import TableQuery.Proofs.Value.Arith

/-!
# Parsing the text of a term

The text of a term that was lowered from an expression is an expression that is lowered to the same
term, but for numbers, which may come back as others of their value: an integer for a decimal
without a fraction. By induction on the normal term, its text spells tokens of an expression, which
lowering takes back to the term and does not change further.
-/

namespace TableQuery

open Grammar

section Numbers

/-- A numeral is read as an integer or as a decimal of the number that it writes. -/
lemma Decimal.Numeral.Writes.exists_literal {n : Decimal.Numeral} {d : Decimal} (h : n.Writes d) :
    ∃ (l : Literal) (x : Decimal), Literal.ofNumeral? (String.ofList (n.text 'E')) = some l
      ∧ l.value.decimal? = some x ∧ x.value = d.value := by
  unfold Literal.ofNumeral?
  rw [String.toList_ofList]
  cases hint : Text.int64OfDigits? (n.text 'E') with
  | some k =>
    refine ⟨.int k, _, rfl, rfl, ?_⟩
    have hplain := Numeral.eq_digits_of_int64OfDigits? (.inr rfl) hint
    rw [Text.int64OfDigits?_eq_some_iff, Numeral.intOfDigits?_text, n.text_eq_whole hplain,
      Text.natOfDigits?_eq_some n.whole_ne_nil n.whole_digits] at hint
    have hcoefficient : n.coefficient = Text.digitsValue n.whole := by
      unfold Numeral.coefficient
      rw [hplain.1, List.append_nil]
    have hscale : n.scale = 0 := by
      unfold Numeral.scale
      rw [hplain.1, hplain.2]
      rfl
    rw [value_ofInt, ← h.value, hscale, hcoefficient, ← Option.some_inj.1 hint, neg_zero,
      zpow_zero, mul_one, Int.cast_natCast]
  | none =>
    obtain ⟨s, hread, hvalue, -⟩ := Decimal.ofChars?_of_writes h (.inr rfl)
    refine ⟨.decimal ⟨n.coefficient, s⟩, _, ?_, rfl, hvalue⟩
    dsimp only
    rw [Decimal.ofText?, String.toList_ofList, hread, Option.map_some]

/-- Literals that are the same have the same value. -/
lemma Literal.same_value {l l' : Literal} (h : l.same l' = true) :
    l.value.same l'.value = true := by
  cases l <;> cases l'
  case int.int =>
    cases beq_iff_eq.1 h
    exact Value.same_of_decimal? rfl rfl rfl
  case string.string | decimal.decimal | bool.bool | null.null => exact h
  all_goals cases h

end Numbers

section Names

/-- A function is found by its name. -/
lemma Builtin.ofName?_name (f : Builtin) : ofName? f.name = some f := by
  cases f <;> decide

/-- The names of functions are identifiers. -/
lemma Builtin.isIdentifier_name (f : Builtin) : Word.isIdentifier f.name.toList = true := by
  cases f <;> decide

/-- A type is found by its name. -/
lemma TypeTest.ofName?_text (test : TypeTest) : ofName? test.text = some test := by
  cases test with
  | any => decide +kernel
  | tag t => cases t <;> decide +kernel

/-- The name of a type has no character that is written in another way in quotes. -/
lemma TypeTest.quoted_text (test : TypeTest) :
    (Text.quoted test.text).toList = '"' :: (test.text.toList ++ ['"']) := by
  cases test with
  | any => decide +kernel
  | tag t => cases t <;> decide +kernel

end Names

namespace Term

variable {schema : TableSchema}

/-- An expression is lowered to a term that is the same as `t`. -/
def Restores (schema : TableSchema) (t : Term) (e : Expr) : Prop :=
  ∃ u, ofExpr schema e = .ok u ∧ t.same u = true

/-- Expressions are lowered to terms that are the same as `ts`. -/
def RestoresAll (schema : TableSchema) (ts : List Term) (es : List Expr) : Prop :=
  ∃ us, ofExprs schema es = .ok us ∧ sameAll ts us = true

section Restores

variable {t l r : Term} {a b : Expr}

/-- A form of two operands restores a term if the operands do. -/
lemma Restores.pair {c : Expr → Expr → Expr} {f : Term → Term → Term}
    (hl : Restores schema l a) (hr : Restores schema r b)
    (hc : ofExpr schema (c a b) = do return f (← ofExpr schema a) (← ofExpr schema b))
    (hf : ∀ u v, l.same u = true → r.same v = true → t.same (f u v) = true) :
    Restores schema t (c a b) := by
  obtain ⟨u, hu, hsame⟩ := hl
  obtain ⟨v, hv, hsame'⟩ := hr
  exact ⟨f u v, by rw [hc, hu, hv]; rfl, hf u v hsame hsame'⟩

/-- A comparison is restored if its operands are and lowering keeps it. -/
lemma Restores.compare {op : Comparison} {isKey : Bool} (hl : Restores schema l a)
    (hr : Restores schema r b) (hkept : comparison schema op l r = .compare op l r isKey) :
    Restores schema (.compare op l r isKey) (.compare op a b) := by
  refine hl.pair hr (by rw [ofExpr]) fun u v hu hv => ?_
  rw [← hkept]
  exact same_comparison op hu hv

/-- A negation is restored if its operand is and lowering keeps it. -/
lemma Restores.not (h : Restores schema t a) (hkept : t.negated = .not t) :
    Restores schema (.not t) (.not a) := by
  obtain ⟨u, hu, hsame⟩ := h
  refine ⟨u.negated, by rw [ofExpr, hu]; rfl, ?_⟩
  rw [← hkept]
  exact same_negated hsame

/-- A numeric negation is restored if its operand is and lowering keeps it. -/
lemma Restores.neg (h : Restores schema t a) (hkept : t.negative = .ok (.neg t)) :
    Restores schema (.neg t) (.neg a) := by
  obtain ⟨u, hu, hsame⟩ := h
  exact ⟨.neg u, by rw [ofExpr, hu]; exact negative_of_same hsame hkept, hsame⟩

/-- A test for a type is restored if lowering keeps it. -/
lemma restores_is {path : Path} {test : TypeTest} {isNegated : Bool}
    (hkept : typeTest path test isNegated = .is path test isNegated) :
    Restores schema (.is path test isNegated)
      (.is (.name path) isNegated (.literal (.string test.text))) := by
  refine ⟨.is path test isNegated, ?_, ?_⟩
  · rw [← hkept, ofExpr, ofExpr, ofExpr]
    dsimp only [bind, Except.bind, Literal.value]
    rw [TypeTest.ofName?_text]
    rfl
  · rw [same, beq_self_eq_true, beq_self_eq_true, beq_self_eq_true]
    rfl

/-- No arguments are restored by none. -/
lemma RestoresAll.nil : RestoresAll schema [] [] :=
  ⟨[], by rw [ofExprs], by rw [sameAll]⟩

/-- Arguments are restored one after the other. -/
lemma RestoresAll.cons {ts : List Term} {es : List Expr} (h : Restores schema t a)
    (hs : RestoresAll schema ts es) : RestoresAll schema (t :: ts) (a :: es) := by
  obtain ⟨u, hu, hsame⟩ := h
  obtain ⟨us, hus, hsames⟩ := hs
  exact ⟨u :: us, by rw [ofExprs, hu, hus]; rfl, Bool.and_eq_true_iff.2 ⟨hsame, hsames⟩⟩

/-- A call is restored if its arguments are. -/
lemma RestoresAll.call {f : Builtin} {ts : List Term} {es : List Expr}
    (hs : RestoresAll schema ts es) : Restores schema (.call f ts) (.call f.name es) := by
  obtain ⟨us, hus, hsames⟩ := hs
  refine ⟨.call f us, ?_, ?_⟩
  · rw [ofExpr, Builtin.ofName?_name]
    dsimp only
    rw [hus]
    rfl
  · rw [same, beq_self_eq_true, hsames]
    rfl

end Restores

/-- A string constant is written as it is read. -/
lemma spelled_quoted (s : String) :
    Spelled 7 (· = .literal (.string s)) (Text.quoted s).toList :=
  ⟨_, _, (spells_quoted s).mono fun _ _ => rfl, .string, rfl⟩

/-- An expression is lowered to the number of a decimal. -/
def RestoresNumber (schema : TableSchema) (d : Decimal) (e : Expr) : Prop :=
  ∃ w x, ofExpr schema e = .ok (.value w) ∧ w.decimal? = some x ∧ x.value = d.value

/-- A sign before a number negates it. -/
lemma RestoresNumber.neg {d : Decimal} {e : Expr} (h : RestoresNumber schema d.neg e) :
    RestoresNumber schema d (.neg e) := by
  obtain ⟨v, x, hv, hx, hvalue⟩ := h
  obtain ⟨w, hw, hnumber, -⟩ := Value.negate_isExact (Value.denotes_iff.2 ⟨x, hx, rfl⟩)
  obtain ⟨y, hy, hvalue'⟩ := Value.denotes_iff.1 hnumber
  have hnegative : negative (.value v) = .ok (.value w) := by
    unfold negative
    dsimp only
    rw [hx, hw]
    rfl
  refine ⟨w, y, ?_, hy, ?_⟩
  · rw [ofExpr, hv]
    exact hnegative
  · rw [hvalue', hvalue, Decimal.value_neg, neg_neg]

/-- The text of a decimal that is not negative is a numeral. -/
lemma spelled_decimal_of_nonneg {d : Decimal} (hd : 0 ≤ d.coefficient) :
    Spelled 7 (RestoresNumber schema d) d.text.toList := by
  obtain ⟨n, mark, hm, htext, hn⟩ := Decimal.toList_text_of_nonneg hd
  obtain ⟨l, x, hread, hx, hvalue⟩ := hn.exists_literal
  rw [htext]
  exact ⟨_, _, spells_numeral n hm, .number hread, l.value, x, by rw [ofExpr], hx, hvalue⟩

/-- The text of a decimal restores its number, with a sign before it if it is negative. -/
lemma spelled_decimal (d : Decimal) :
    Spelled 6 (RestoresNumber schema d) d.text.toList := by
  rcases lt_or_ge d.coefficient 0 with h | h
  · have hneg : 0 ≤ d.neg.coefficient := by
      change 0 ≤ -d.coefficient
      omega
    have hnumeral : Spelled 6 (RestoresNumber schema d.neg) d.neg.text.toList :=
      (spelled_decimal_of_nonneg hneg).loosen (by decide)
    rw [Decimal.toList_text_of_neg h]
    exact hnumeral.unary (spells_arith .sub) .neg fun _ => RestoresNumber.neg
  · exact (spelled_decimal_of_nonneg h).loosen (by decide)

/-- A constant of a literal restores itself, with a sign before a negative number. -/
lemma spelled_value (l : Literal) :
    Spelled 6 (Restores schema (.value l.value)) (valueText l.value).toList := by
  have number {v : Value} {x : Decimal} (hx : v.decimal? = some x) :
      Spelled 6 (Restores schema (.value v)) v.text.toList := by
    have hnumber : Spelled 6 (RestoresNumber schema x) x.text.toList := spelled_decimal x
    rw [Value.text_of_decimal? hx]
    refine hnumber.imp ?_
    rintro e ⟨w, y, hw, hy, hvalue⟩
    exact ⟨.value w, hw, Value.same_of_decimal? hx hy hvalue⟩
  -- what is no number is written as its literal
  have other (hl : l.WellFormed) (htext : l.text = valueText l.value) :
      Spelled 6 (Restores schema (.value l.value)) (valueText l.value).toList := by
    obtain ⟨ts, l', hts, hl', hsame⟩ := Literal.renders hl
    have hrestores : Restores schema (.value l.value) (.literal l') :=
      ⟨.value l'.value, by rw [ofExpr], Literal.same_value hsame⟩
    rw [← htext]
    exact Spelled.loosen ⟨ts, .literal l', hts, hl', hrestores⟩ (by decide)
  cases l with
  | int n => exact number rfl
  | decimal d => exact number rfl
  | string s => exact other trivial rfl
  | bool b => exact other trivial rfl
  | null => exact other trivial rfl

/-- The level of the text of a term: a leaf may have a sign. -/
def level (t : Term) : Nat :=
  if t.isLeaf then 6 else 1

/-- Parentheses bring all operands but leaves to the level of a sign. -/
lemma spelled_operand {t : Term} {k : Nat}
    (h : Spelled t.level (Restores schema t) t.text.toList) (hk : k ≤ 6) :
    Spelled k (Restores schema t) (Expr.grouped (!t.isLeaf) t.text).toList := by
  unfold level at h
  cases hleaf : t.isLeaf with
  | true =>
    rw [hleaf] at h
    exact h.grouped (by decide) (fun _ => hk) (Nat.le_trans hk (by decide))
  | false =>
    rw [hleaf] at h
    exact h.grouped (by decide) nofun (Nat.le_trans hk (by decide))

/-- The text of a type test has the name of the type as a string. -/
lemma toList_text_is (path : Path) (test : TypeTest) (isNegated : Bool) :
    (Term.is path test isNegated).text.toList = path.text.toList
      ++ ((if isNegated then " is not " else " is ").toList ++ (Text.quoted test.text).toList) := by
  rw [text, test.quoted_text]
  cases isNegated <;> simp [String.toList_append]

/-- Every term can be an argument. -/
lemma level_pos (t : Term) : 1 ≤ t.level := by
  unfold level
  split
  next => decide
  next => decide

mutual

/-- The text of a normal term restores it. -/
lemma spelled_of_normal : ∀ t : Term, t.Normal schema →
    Spelled t.level (Restores schema t) t.text.toList
  | .value _, h => by
    obtain ⟨l, rfl⟩ := h
    exact spelled_value l
  | .name path, h => by
    refine ((Path.spelled h).loosen (j := 6) (by decide)).imp ?_
    rintro e rfl
    exact ⟨.name path, by rw [ofExpr], by rw [same, beq_self_eq_true]⟩
  | .compare op l r isKey, h => by
    have hl := spelled_operand (spelled_of_normal l h.2.1) (k := 5) (by decide)
    have hr := spelled_operand (spelled_of_normal r h.2.2) (k := 5) (by decide)
    rw [text]
    refine (hl.spaced (spells_comparison op) hr .compare ?_).loosen (j := 1) (by decide)
    exact fun _ _ ha hb => ha.compare hb h.1
  | .and l r, h => by
    have hl := spelled_operand (spelled_of_normal l h.1) (k := 2) (by decide)
    have hr := spelled_operand (spelled_of_normal r h.2) (k := 3) (by decide)
    rw [text, String.toList_append, String.toList_append, List.append_assoc]
    refine (hl.binary (spells_spaced_keyword .and) hr .and ?_).loosen (j := 1) (by decide)
    exact fun _ _ ha hb => ha.pair (f := .and) hb (by rw [ofExpr]) fun _ _ hu hv =>
      Bool.and_eq_true_iff.2 ⟨hu, hv⟩
  | .or l r, h => by
    have hl := spelled_operand (spelled_of_normal l h.1) (k := 1) (by decide)
    have hr := spelled_operand (spelled_of_normal r h.2) (k := 2) (by decide)
    rw [text, String.toList_append, String.toList_append, List.append_assoc]
    refine hl.binary (spells_spaced_keyword .or) hr .or ?_
    exact fun _ _ ha hb => ha.pair (f := .or) hb (by rw [ofExpr]) fun _ _ hu hv =>
      Bool.and_eq_true_iff.2 ⟨hu, hv⟩
  | .not t, h => by
    have ht := spelled_operand (spelled_of_normal t h.2) (k := 3) (by decide)
    have hop := (spells_keyword .not).append spells_blank rfl (by decide)
    rw [text, String.toList_append]
    exact (ht.unary hop .not fun _ ha => ha.not h.1).loosen (j := 1) (by decide)
  | .is path test isNegated, h => by
    have hpath := (Path.spelled h.2).loosen (j := 5) (by decide)
    have htest := (spelled_quoted test.text).loosen (j := 5) (by decide)
    rw [toList_text_is]
    cases isNegated with
    | false =>
      refine (hpath.binary (spells_spaced_keyword .is) htest .is ?_).loosen (j := 1) (by decide)
      rintro _ _ rfl rfl
      exact restores_is h.1
    | true =>
      have hop := (spells_spaced_keyword .is).append_anything
        ((spells_keyword .not).append spells_blank rfl (by decide))
      refine (hpath.binary hop htest .isNot ?_).loosen (j := 1) (by decide)
      rintro _ _ rfl rfl
      exact restores_is h.1
  | .arith op l r, h => by
    have hl := spelled_operand (spelled_of_normal l h.1) (k := 5) (by decide)
    have hr := spelled_operand (spelled_of_normal r h.2) (k := 6) (by decide)
    have hop : Spells (· == ' ') op.text.toList [.arith op] := (spells_arith op).mono fun _ _ => rfl
    rw [text]
    refine (hl.spaced hop hr .arith ?_).loosen (j := 1) (by decide)
    exact fun _ _ ha hb => ha.pair (f := .arith op) hb (by rw [ofExpr]) fun _ _ hu hv => by
      rw [same, beq_self_eq_true, hu, hv]
      rfl
  | .neg t, h => by
    have ht := spelled_operand (spelled_of_normal t h.2) (k := 6) (by decide)
    rw [text, String.toList_append]
    exact (ht.unary (spells_arith .sub) .neg fun _ ha => ha.neg h.1).loosen (j := 1) (by decide)
  | .call f args, h => by
    rw [text]
    cases args with
    | nil =>
      have hnone : RestoresAll schema [] [] := .nil
      exact (spelled_constant f.isIdentifier_name hnone.call).loosen (j := 6) (by decide)
    | cons t rest =>
      have hargs := spelledArgs_of_normal (t :: rest) h nofun
      have hcall := hargs.call f.isIdentifier_name fun _ he => he.call
      exact hcall.loosen (j := 6) (by decide)

/-- The texts of normal arguments restore them. -/
lemma spelledArgs_of_normal : ∀ args : List Term, AllNormal schema args → args ≠ [] →
    SpelledArgs (RestoresAll schema args) (argsText args).toList
  | [], _, h => absurd rfl h
  | [t], h, _ => by
    have ht := (spelled_of_normal t h.1).loosen t.level_pos
    exact ht.last fun _ he => .cons he .nil
  | t :: u :: rest, h, _ => by
    have ht := (spelled_of_normal t h.1).loosen t.level_pos
    have hrest := spelledArgs_of_normal (u :: rest) h.2 nofun
    exact ht.more hrest fun _ _ he hes => .cons he hes

end

/-- The text of a term that an expression is lowered to is an expression that is lowered to the same
term: of the same form, with the same operators, paths, flags, functions and key comparisons, and
with constants that are identical or numbers of one value. -/
theorem text_faithful {source : String} {e : Expr} {t : Term}
    (hparse : Expr.parse source = .ok e) (hlower : ofExpr schema e = .ok t) :
    ∃ e' t', Expr.parse t.text = .ok e' ∧ ofExpr schema e' = .ok t' ∧ t.same t' = true := by
  have hnormal : t.Normal schema :=
    (lowers_of_ofExpr e hlower).normal (Expr.wellFormed_of_parse hparse)
  obtain ⟨ts, e', hts, he, t', ht, hsame⟩ := (spelled_of_normal t hnormal).loosen t.level_pos
  exact ⟨e', t', Expr.parse_eq_ok_iff.2 ⟨ts, hts.lexes, he⟩, ht, hsame⟩

/-- A comparison that is turned around, a negation in a test, a negative constant as an operand, and
a decimal that comes back as an integer. -/
theorem text_faithful_turned :
    let schema : TableSchema := ⟨"t", ⟨⟨"a", .number⟩, none⟩, []⟩
    let source := "-5 < a and not (b[0] is \"any\") or size(c, 1 - -2.50) <> 5e3"
    ∃ e t, Expr.parse source = .ok e ∧ ofExpr schema e = .ok t
      ∧ t.text = "((a > -5) and (b[0] is not \"ANY\")) or (size(c, 1 - -2.50) <> 5000)"
      ∧ ∃ e' t', Expr.parse t.text = .ok e' ∧ ofExpr schema e' = .ok t' ∧ t.same t' = true := by
  intro schema source
  have h : (Expr.parse source).toOption.any (fun e => (ofExpr schema e).toOption.any fun t =>
      t.text = "((a > -5) and (b[0] is not \"ANY\")) or (size(c, 1 - -2.50) <> 5000)") = true := by
    decide +kernel
  obtain ⟨e, he, h⟩ := exists_of_any_toOption h
  obtain ⟨t, ht, h⟩ := exists_of_any_toOption h
  exact ⟨e, t, he, ht, of_decide_eq_true h, text_faithful he ht⟩

end Term

end TableQuery
