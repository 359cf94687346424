import TableQuery.Proofs.Expr.Lexing

/-!
# The characters of a token

A token is read from the characters in front of what is left: a string literal from its quotes and
what is between them, and every other token from characters of which none is a quote. So the tokens
of a text tell what stands outside of its string literals, and how many parentheses it opens there.
-/

namespace TableQuery

namespace Text

mutual

/-- The characters of a text outside of its string literals. -/
def bare : List Char → List Char
  | [] => []
  | c :: s => if c = '"' then bareBehind s else c :: bare s

/-- The characters outside of string literals, of a text that begins within one. -/
def bareBehind : List Char → List Char
  | [] => []
  | ['\\'] => []
  | '\\' :: _ :: s => bareBehind s
  | c :: s => if c = '"' then bare s else bareBehind s

end

variable {s text rest : List Char}

/-- Where there are no quotes everything is outside of string literals. -/
lemma bare_append {w : List Char} (h : '"' ∉ w) (r : List Char) : bare (w ++ r) = w ++ bare r := by
  induction w with
  | nil => rfl
  | cons c w ih =>
    rw [List.mem_cons, not_or] at h
    rw [List.cons_append, bare, if_neg (Ne.symm h.1), ih h.2, List.cons_append]

/-- Most characters of a string literal stand for themselves. -/
lemma bareBehind_cons {c : Char} (hquote : c ≠ '"') (hslash : c ≠ '\\') (s : List Char) :
    bareBehind (c :: s) = bareBehind s := by
  rw [bareBehind, if_neg hquote]
  · rintro rfl
    exact absurd rfl hslash
  · rintro _ _ rfl
    exact absurd rfl hslash

/-- A string literal is read to the quote that ends it. -/
lemma exists_of_unquote (h : unquote s = .ok (text, rest)) :
    ∃ w, s = w ++ rest ∧ ∀ r, bareBehind (w ++ r) = bare r := by
  fun_induction unquote s generalizing text with
  | case1 => cases h
  | case2 s =>
    cases h
    exact ⟨['"'], rfl, fun _ => rfl⟩
  | case3 => cases h
  | case4 c s d _ ih =>
    obtain ⟨⟨_, _⟩, hs, ht⟩ := map_eq_ok_iff.1 h
    cases ht
    obtain ⟨w, rfl, hw⟩ := ih hs
    exact ⟨'\\' :: c :: w, rfl, fun r => by rw [List.cons_append, List.cons_append, bareBehind, hw]⟩
  | case5 => cases h
  | case6 c s hquote hlast hescape ih =>
    obtain ⟨⟨_, _⟩, hs, ht⟩ := map_eq_ok_iff.1 h
    cases ht
    obtain ⟨w, rfl, hw⟩ := ih hs
    refine ⟨c :: w, rfl, fun r => ?_⟩
    have hslash : c ≠ '\\' := by
      intro hc
      cases hrest : w ++ rest with
      | nil => exact hlast hc hrest
      | cons d r => exact hescape d r hc hrest
    rw [List.cons_append, bareBehind_cons hquote hslash, hw]

/-- A text ends outside of string literals, and `n` parentheses are opened there. -/
def Opens (s : List Char) (n : Nat) : Prop :=
  (∀ r, bare (s ++ r) = bare s ++ bare r) ∧ (bare s).count '(' = n

/-- The empty text opens no parentheses. -/
lemma opens_nil : Opens [] 0 :=
  ⟨fun _ => rfl, rfl⟩

/-- One text after another opens the parentheses of both. -/
lemma Opens.append {s' : List Char} {n m : Nat} (h : Opens s n) (h' : Opens s' m) :
    Opens (s ++ s') (n + m) := by
  constructor
  · intro r
    rw [List.append_assoc, h.1, h'.1, h.1, List.append_assoc]
  · rw [h.1, List.count_append, h.2, h'.2]

/-- A text without quotes opens all of its parentheses. -/
lemma opens_of_notMem (h : '"' ∉ s) : Opens s (s.count '(') := by
  have hs := bare_append h []
  rw [List.append_nil, bare, List.append_nil] at hs
  refine ⟨fun r => ?_, congrArg _ hs⟩
  rw [bare_append h, hs]

/-- A string literal opens no parentheses. -/
lemma opens_literal (h : ∀ r, bareBehind (s ++ r) = bare r) : Opens ('"' :: s) 0 := by
  have hs : bare ('"' :: s) = [] := by
    have := h []
    rwa [List.append_nil] at this
  refine ⟨fun r => ?_, congrArg _ hs⟩
  rw [hs]
  exact h r

end Text

/-- Characters of which none is a quote or opens a parenthesis. -/
def Plain (w : List Char) : Prop :=
  ∀ c ∈ w, c ≠ '"' ∧ c ≠ '('

section Plain

variable {c : Char} {s w w' : List Char}

instance : Decidable (Plain w) :=
  List.decidableBAll _ w

/-- The empty text is plain. -/
lemma plain_nil : Plain [] :=
  nofun

/-- One plain text after another is plain. -/
lemma Plain.append (h : Plain w) (h' : Plain w') : Plain (w ++ w') :=
  List.forall_mem_append.2 ⟨h, h'⟩

/-- A character in front of a plain text, unless it is a quote or opens a parenthesis. -/
lemma plain_cons (hc : c ≠ '"' ∧ c ≠ '(') (h : Plain w) : Plain (c :: w) :=
  List.forall_mem_cons.2 ⟨hc, h⟩

/-- Parts of words, digits among them, are plain. -/
lemma plain_of_isPart (h : ∀ c ∈ w, Word.isPart c = true) : Plain w := by
  intro c hc
  have hpart := h c hc
  constructor <;> rintro rfl <;> exact absurd hpart (by decide)

/-- Digits are plain. -/
lemma plain_digits (s : List Char) : Plain (s.takeWhile Char.isDigit) :=
  plain_of_isPart fun _ hc => Word.isPart_of_isDigit (List.mem_takeWhile_imp hc)

/-- The text in front of what is left is plain. -/
def Front (s rest : List Char) : Prop :=
  ∃ w, Plain w ∧ s = w ++ rest

/-- There need be nothing in front of what is left. -/
lemma Front.refl (s : List Char) : Front s s :=
  ⟨[], plain_nil, rfl⟩

/-- What is in front of two rests, one behind the other, is plain. -/
lemma Front.trans {s mid rest : List Char} (h : Front s mid) (h' : Front mid rest) :
    Front s rest := by
  obtain ⟨w, hw, rfl⟩ := h
  obtain ⟨w', hw', rfl⟩ := h'
  exact ⟨w ++ w', hw.append hw', (List.append_assoc _ _ _).symm⟩

/-- A character in front of plain text, unless it is a quote or opens a parenthesis. -/
lemma Front.cons {rest : List Char} (hc : c ≠ '"' ∧ c ≠ '(') (h : Front s rest) :
    Front (c :: s) rest := by
  obtain ⟨w, hw, rfl⟩ := h
  exact ⟨c :: w, plain_cons hc hw, rfl⟩

/-- The digits at the beginning of a text are plain. -/
lemma front_digits (s : List Char) : Front s (s.dropWhile Char.isDigit) :=
  ⟨_, plain_digits s, List.takeWhile_append_dropWhile.symm⟩

/-- The fraction of a number is plain. -/
lemma front_fraction (s : List Char) : Front s (Numeral.fraction s).2 := by
  unfold Numeral.fraction
  split
  next r =>
    dsimp only
    split
    next => exact .refl _
    next => exact (front_digits r).cons (by decide)
  next => exact .refl _

/-- The sign of an exponent is plain. -/
lemma front_sign (s : List Char) : Front s (Numeral.sign s).2 := by
  unfold Numeral.sign
  split
  next => exact (Front.refl _).cons (by decide)
  next => exact (Front.refl _).cons (by decide)
  next => exact .refl _

/-- The exponent of a number is plain. -/
lemma front_exponent (s : List Char) : Front s (Numeral.exponent s).2 := by
  unfold Numeral.exponent
  split
  next e r =>
    dsimp only
    split
    next h =>
      have he : e ≠ '"' ∧ e ≠ '(' := by
        constructor <;> rintro rfl <;> simp at h
      exact ((front_sign r).trans (front_digits _)).cons he
    next => exact .refl _
  next => exact .refl _

/-- A numeral is read from plain characters. -/
lemma front_numeral (s : List Char) : Front s (Numeral.read s).2 :=
  ((front_digits s).trans (front_fraction _)).trans (front_exponent _)

/-- A word is read from plain characters. -/
lemma front_word (s : List Char) : Front s (s.dropWhile Word.isPart) :=
  ⟨_, plain_of_isPart fun _ hc => List.mem_takeWhile_imp hc, List.takeWhile_append_dropWhile.symm⟩

end Plain

open Text (Opens)

/-- Plain text opens no parentheses. -/
lemma Plain.opens {w : List Char} (h : Plain w) : Opens w 0 := by
  have hopens := Text.opens_of_notMem fun hw => (h _ hw).1 rfl
  rwa [List.count_eq_zero.2 fun hw => (h _ hw).2 rfl] at hopens

/-- A word is a token that opens no parenthesis. -/
lemma count_ofWord (w : List Char) : [Token.ofWord w].count .openParen = 0 := by
  unfold Token.ofWord
  split <;> rfl

/-- A token is read from characters of its own. -/
lemma opens_of_read {c : Char} {s rest : List Char} {t : Token}
    (h : Token.read c s = .ok (t, rest)) :
    ∃ w, c :: s = w ++ rest ∧ Opens w ([t].count .openParen) := by
  cases readFrom_of_read h with
  | @symbol w _ _ hmem hs =>
    have unquoted : ∀ p ∈ Token.symbols, '"' ∉ p.1 ∧ p.1.count '(' = [p.2].count .openParen := by
      decide
    obtain ⟨hquote, hcount⟩ := unquoted _ hmem
    exact ⟨w, hs, hcount ▸ Text.opens_of_notMem hquote⟩
  | string hc hq =>
    subst hc
    obtain ⟨w, rfl, hw⟩ := Text.exists_of_unquote hq
    exact ⟨'"' :: w, rfl, Text.opens_literal hw⟩
  | numeral _ =>
    obtain ⟨w, hw, hs⟩ := front_numeral (c :: s)
    exact ⟨w, hs, hw.opens⟩
  | word hstart =>
    obtain ⟨w, hw, hs⟩ := front_word (c :: s)
    rw [List.dropWhile_cons_of_pos (Word.isPart_of_isStart hstart)] at hs
    exact ⟨w, hs, (count_ofWord _).symm ▸ hw.opens⟩

/-- A symbol is read from the characters that it is written with. -/
lemma read_symbol {c : Char} {s rest w : List Char} {t : Token} (hw : (w, t) ∈ Token.symbols)
    (h : Token.read c s = .ok (t, rest)) : ∃ w', (w', t) ∈ Token.symbols ∧ c :: s = w' ++ rest := by
  cases readFrom_of_read h with
  | symbol hmem hs => exact ⟨_, hmem, hs⟩
  | string | numeral => simp [Token.symbols] at hw
  | word =>
    unfold Token.ofWord at hw
    split at hw <;> simp [Token.symbols] at hw

section Cuts

variable {n i : Nat} {s rest : List Char} {t : Token} {pre sp : List Spanned}

/-- What stands outside of the string literals of a text opens as many parentheses as there are
tokens that do. -/
lemma Cuts.opens (h : Cuts n s sp rest) :
    ∃ w, s = w ++ rest ∧ Opens w ((sp.map Spanned.token).count .openParen) := by
  induction h with
  | nil => exact ⟨[], rfl, Text.opens_nil⟩
  | @blank _ c _ _ _ hc _ ih =>
    obtain ⟨w, rfl, hw⟩ := ih
    have hplain : Plain [c] := by
      refine plain_cons ⟨?_, ?_⟩ plain_nil <;> rintro rfl <;> exact absurd hc (by decide)
    have hopens := hplain.opens.append hw
    rw [Nat.zero_add] at hopens
    exact ⟨c :: w, rfl, hopens⟩
  | token _ hread _ ih =>
    obtain ⟨w, hs, hw⟩ := opens_of_read hread
    obtain ⟨w', rfl, hw'⟩ := ih
    refine ⟨w ++ w', by rw [hs, List.append_assoc], ?_⟩
    rw [List.map_cons, List.count_cons, Nat.add_comm, ← List.count_singleton]
    exact hw.append hw'

/-- Every token begins at its place. -/
lemma Cuts.locate (h : Cuts n s (pre ++ ⟨t, i⟩ :: sp) rest) :
    ∃ before c r mid, s = before ++ c :: r ∧ i = n + before.length ∧ Cuts n s pre (c :: r)
      ∧ Text.isBlank c = false ∧ Token.read c r = .ok (t, mid)
      ∧ Cuts (i + ((c :: r).length - mid.length)) mid sp rest := by
  generalize hall : pre ++ ⟨t, i⟩ :: sp = all at h
  induction h generalizing pre with
  | nil => exact absurd hall (by simp)
  | @blank _ c _ _ _ hc _ ih =>
    obtain ⟨before, d, r, mid, rfl, rfl, hpre, hread⟩ := ih hall
    exact ⟨c :: before, d, r, mid, rfl, by rw [List.length_cons]; omega, .blank hc hpre, hread⟩
  | @token n c s u mid all rest hc hread h ih =>
    cases pre with
    | nil =>
      cases hall
      exact ⟨[], c, s, mid, rfl, rfl, .nil, hc, hread, h⟩
    | cons x pre =>
      rw [List.cons_append, List.cons.injEq] at hall
      obtain ⟨rfl, hall⟩ := hall
      obtain ⟨w, hs, -⟩ := opens_of_read hread
      obtain ⟨before, d, r, mid', hmid, rfl, hpre, hread'⟩ := ih hall
      have hlength := congrArg List.length hs
      rw [List.length_append] at hlength
      refine ⟨w ++ before, d, r, mid', ?_, ?_, .token hc hread hpre, hread'⟩
      · rw [hs, hmid, List.append_assoc]
      · rw [List.length_append]
        omega

end Cuts

/-- A text with tokens opens as many parentheses outside of its string literals as there are tokens
that do. -/
lemma Lexes.opens {s : List Char} {ts : List Token} (h : Lexes s ts) :
    Opens s (ts.count .openParen) := by
  obtain ⟨sp, hsp, rfl⟩ := readAll_of_lexes h rfl
  obtain ⟨w, hs, hw⟩ := (cuts_of_tokens hsp).opens
  rw [List.append_nil] at hs
  rwa [hs]

end TableQuery
