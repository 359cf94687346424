import Mathlib.Data.List.TakeWhile
import TableQuery.Expr.Lexer
import TableQuery.Proofs.Decimal.Numeral
import TableQuery.Proofs.Except
import TableQuery.Proofs.Text.Quoted
import TableQuery.Proofs.Word

/-!
# What the lexer reads

A text is cut into tokens one after the other. A piece of text spells its tokens wherever it stands,
as long as no character follows that would go on with its last token.
-/

namespace TableQuery

/-- The tokens that a text is cut into. -/
inductive Lexes : List Char → List Token → Prop where
  | nil :
    Lexes [] []
  | blank {c s ts} :
    Text.isBlank c = true →
    Lexes s ts →
    Lexes (c :: s) ts
  | token {c s t rest ts} :
    Text.isBlank c = false →
    Token.read c s = .ok (t, rest) →
    Lexes rest ts →
    Lexes (c :: s) (t :: ts)

/-- The tokens at the front of a text that begins at a place, with their own places, and what is
left behind them. -/
inductive Cuts : Nat → List Char → List Spanned → List Char → Prop where
  | nil {n s} :
    Cuts n s [] s
  | blank {n c s sp rest} :
    Text.isBlank c = true →
    Cuts (n + 1) s sp rest →
    Cuts n (c :: s) sp rest
  | token {n c s t mid sp rest} :
    Text.isBlank c = false →
    Token.read c s = .ok (t, mid) →
    Cuts (n + ((c :: s).length - mid.length)) mid sp rest →
    Cuts n (c :: s) (⟨t, n⟩ :: sp) rest

section ReadAll

variable {total n : Nat} {s r rest : List Char} {c : Char} {t : Token} {sp : List Spanned}

/-- Nothing but blanks has no tokens. -/
lemma readAll_blanks (h : s.dropWhile Text.isBlank = []) : Token.readAll total s = .ok [] := by
  rw [Token.readAll]
  split
  next => rfl
  next e =>
    rw [h] at e
    cases e

/-- The tokens of a text are the first one and those behind it. -/
lemma readAll_cons (total : Nat) (h : s.dropWhile Text.isBlank = c :: r)
    (ht : Token.read c r = .ok (t, rest)) :
    Token.readAll total s
      = (Token.readAll total rest).map (⟨t, total - (c :: r).length⟩ :: ·) := by
  rw [Token.readAll]
  split
  next e =>
    rw [h] at e
    cases e
  next e =>
    rw [h] at e
    cases e
    split
    next e =>
      rw [ht] at e
      cases e
    next e =>
      rw [ht] at e
      cases e
      rfl

/-- A text without a first token has no tokens. -/
lemma readAll_error (total : Nat) {f : Token.Fault} (h : s.dropWhile Text.isBlank = c :: r)
    (ht : Token.read c r = .error f) :
    Token.readAll total s = .error ⟨total - f.rest.length, f.found, f.expected⟩ := by
  rw [Token.readAll]
  split
  next e =>
    rw [h] at e
    cases e
  next e =>
    rw [h] at e
    cases e
    split
    next e =>
      rw [ht] at e
      cases e
      rfl
    next e =>
      rw [ht] at e
      cases e

/-- Blanks before a text only move its tokens. -/
lemma Cuts.blanks {b : List Char} (hb : ∀ c ∈ b, Text.isBlank c = true)
    (h : Cuts (n + b.length) s sp rest) : Cuts n (b ++ s) sp rest := by
  induction b generalizing n with
  | nil => exact h
  | cons c b ih =>
    rw [List.forall_mem_cons] at hb
    refine .blank hb.1 (ih hb.2 ?_)
    rwa [Nat.add_assoc, Nat.add_comm 1]

/-- A text that is cut to its end has these tokens. -/
lemma Cuts.lexes (h : Cuts n s sp []) : Lexes s (sp.map Spanned.token) := by
  generalize hrest : ([] : List Char) = rest at h
  induction h with
  | nil =>
    rw [← hrest]
    exact .nil
  | blank hc _ ih => exact .blank hc (ih hrest)
  | token hc hread _ ih => exact .token hc hread (ih hrest)

/-- The lexer cuts a text to its end, or up to where no token begins. -/
lemma cuts_of_readAll (hs : s.length ≤ total) :
    (∃ sp, Token.readAll total s = .ok sp ∧ Cuts (total - s.length) s sp [])
      ∨ ∃ sp c r f, Cuts (total - s.length) s sp (c :: r) ∧ Text.isBlank c = false
        ∧ Token.read c r = .error f
        ∧ Token.readAll total s = .error ⟨total - f.rest.length, f.found, f.expected⟩ := by
  -- on the length of the text, since what is left behind a token is shorter
  induction hn : s.length using Nat.strongRecOn generalizing s with
  | ind n ih =>
    have blanks {sp rest} (h : Cuts (total - (s.dropWhile Text.isBlank).length)
        (s.dropWhile Text.isBlank) sp rest) : Cuts (total - n) s sp rest := by
      have hsplit : s = s.takeWhile Text.isBlank ++ s.dropWhile Text.isBlank :=
        List.takeWhile_append_dropWhile.symm
      have hlength := congrArg List.length hsplit
      rw [List.length_append] at hlength
      rw [hsplit]
      refine Cuts.blanks (fun _ hc => List.mem_takeWhile_imp hc) ?_
      convert h using 1
      omega
    cases hdrop : s.dropWhile Text.isBlank with
    | nil =>
      rw [hdrop] at blanks
      exact .inl ⟨[], readAll_blanks hdrop, blanks .nil⟩
    | cons c r =>
      have hsuffix := (List.dropWhile_suffix Text.isBlank (l := s)).length_le
      rw [hdrop] at blanks hsuffix
      have hblank : Text.isBlank c = false := by
        have := List.head?_dropWhile_not Text.isBlank s
        rw [hdrop] at this
        simpa using this
      cases hread : Token.read c r with
      | error f =>
        have herror := readAll_error total hdrop hread
        exact .inr ⟨[], c, r, f, blanks .nil, hblank, hread, herror⟩
      | ok p =>
        obtain ⟨t, rest⟩ := p
        have hlength : rest.length < (c :: r).length :=
          Nat.lt_succ_of_le (Token.length_read hread)
        have hplace : total - rest.length
            = total - (c :: r).length + ((c :: r).length - rest.length) := by
          omega
        have first {sp rest'} (h : Cuts (total - rest.length) rest sp rest') :
            Cuts (total - n) s (⟨t, total - (c :: r).length⟩ :: sp) rest' :=
          blanks (.token hblank hread (hplace ▸ h))
        have hmore := readAll_cons total hdrop hread
        rcases ih rest.length (by omega) (by omega) rfl with
          ⟨sp, hsp, hcuts⟩ | ⟨sp, c', r', f, hcuts, hc', hread', herror⟩
        · rw [hsp] at hmore
          exact .inl ⟨_, hmore, first hcuts⟩
        · rw [herror] at hmore
          exact .inr ⟨_, c', r', f, first hcuts, hc', hread', hmore⟩

/-- The lexer gives the tokens of a text, each with its place. -/
lemma cuts_of_tokens (h : tokens s = .ok sp) : Cuts 0 s sp [] := by
  unfold tokens at h
  rcases cuts_of_readAll (Nat.le_refl s.length) with
    ⟨_, hread, hcuts⟩ | ⟨_, _, _, _, _, _, _, hread⟩
  · rw [hread] at h
    cases h
    rwa [Nat.sub_self] at hcuts
  · rw [hread] at h
    cases h

/-- Tokens that are read one after the other are the tokens of the text. -/
lemma lexes_of_readAll (h : Token.readAll s.length s = .ok sp) :
    Lexes s (sp.map Spanned.token) :=
  (cuts_of_tokens h).lexes

/-- A text has the tokens that it is cut into, whatever blanks stand before it. -/
lemma readAll_of_lexes {ts : List Token} (h : Lexes s ts) {s' : List Char}
    (hs' : s'.dropWhile Text.isBlank = s.dropWhile Text.isBlank) :
    ∃ sp, Token.readAll total s' = .ok sp ∧ sp.map Spanned.token = ts := by
  induction h generalizing s' with
  | nil => exact ⟨[], readAll_blanks hs', rfl⟩
  | blank hc _ ih => exact ih (hs'.trans (List.dropWhile_cons_of_pos hc))
  | @token c s _ _ _ hc ht _ ih =>
    rw [List.dropWhile_cons_of_neg (by simp [hc])] at hs'
    have hread := readAll_cons total hs' ht
    obtain ⟨sp, hsp, rfl⟩ := ih rfl
    rw [hsp] at hread
    exact ⟨_, hread, rfl⟩

end ReadAll

/-- A text spells tokens wherever it stands, unless a character follows that does not `stop` them. -/
def Spells (stop : Char → Bool) (s : List Char) (ts : List Token) : Prop :=
  ∀ rest us, (∀ c ∈ rest.head?, stop c = true) → Lexes rest us → Lexes (s ++ rest) (ts ++ us)

/-- Any character stops a token that cannot go on. -/
def anything (_ : Char) : Bool :=
  true

section Spells

variable {stop stop' : Char → Bool} {s s' : List Char} {ts us : List Token}

/-- A text that spells tokens is cut into them. -/
lemma Spells.lexes (h : Spells stop s ts) : Lexes s ts := by
  have := h [] [] nofun .nil
  rwa [List.append_nil, List.append_nil] at this

/-- Fewer characters may follow. -/
lemma Spells.mono (h : Spells stop s ts) (hstop : ∀ c, stop' c = true → stop c = true) :
    Spells stop' s ts :=
  fun rest us hrest hus => h rest us (fun c hc => hstop c (hrest c hc)) hus

/-- Two texts of which the second stops the tokens of the first. -/
lemma Spells.append (h : Spells stop s ts) (h' : Spells stop' s' us) {c : Char}
    (hc : s'.head? = some c) (hstop : stop c = true) : Spells stop' (s ++ s') (ts ++ us) := by
  intro rest vs hrest hvs
  rw [List.append_assoc, List.append_assoc]
  apply h
  · rw [List.head?_append, hc]
    rintro _ ⟨⟩
    exact hstop
  · exact h' rest vs hrest hvs

/-- Two texts that need the same characters to stop them. -/
lemma Spells.append_same (h : Spells stop s ts) (h' : Spells stop s' us)
    (hstop : ∀ c ∈ s'.head?, stop c = true) : Spells stop (s ++ s') (ts ++ us) := by
  cases s' with
  | nil =>
    intro rest vs hrest hvs
    rw [List.append_nil, List.append_assoc]
    exact h _ _ hrest (h' rest vs hrest hvs)
  | cons c s' => exact h.append h' rfl (hstop c rfl)

/-- Two texts of which the first needs nothing that stops it. -/
lemma Spells.append_anything (h : Spells anything s ts) (h' : Spells stop s' us) :
    Spells stop (s ++ s') (ts ++ us) := by
  intro rest vs hrest hvs
  rw [List.append_assoc, List.append_assoc]
  exact h _ _ (fun _ _ => rfl) (h' rest vs hrest hvs)

/-- No text spells no tokens. -/
lemma spells_nil : Spells anything [] [] :=
  fun _ _ _ hus => hus

/-- A blank spells no token. -/
lemma spells_blank : Spells anything [' '] [] :=
  fun _ _ _ hus => .blank (by decide) hus

/-- A text spells the token that is read from its front if the rest is left. -/
lemma spells_of_read {c : Char} {t : Token} (hc : Text.isBlank c = false)
    (h : ∀ rest, (∀ c ∈ rest.head?, stop c = true) → Token.read c (s ++ rest) = .ok (t, rest)) :
    Spells stop (c :: s) [t] :=
  fun rest _ hrest hus => .token hc (h rest hrest) hus

/-- A character that is a token by itself spells it. -/
lemma spells_symbol {c : Char} {t : Token} (hc : Text.isBlank c = false)
    (h : ∀ rest, Token.read c rest = .ok (t, rest)) : Spells anything [c] [t] :=
  spells_of_read hc fun rest _ => h rest

/-- Tokens in parentheses. -/
lemma Spells.parens (h : Spells stop s ts) (hstop : stop ')' = true) :
    Spells anything ('(' :: (s ++ [')'])) (.openParen :: (ts ++ [.closeParen])) := by
  have opened := spells_symbol (c := '(') (by decide) fun _ => rfl
  have closed := spells_symbol (c := ')') (by decide) fun _ => rfl
  exact opened.append_anything (h.append closed rfl hstop)

/-- Tokens in brackets. -/
lemma Spells.brackets (h : Spells stop s ts) (hstop : stop ']' = true) :
    Spells anything ('[' :: (s ++ [']'])) (.openBracket :: (ts ++ [.closeBracket])) := by
  have opened := spells_symbol (c := '[') (by decide) fun _ => rfl
  have closed := spells_symbol (c := ']') (by decide) fun _ => rfl
  exact opened.append_anything (h.append closed rfl hstop)

/-- Tokens with a blank on either side. -/
lemma Spells.spaced (h : Spells (· == ' ') s ts) : Spells anything (' ' :: (s ++ [' '])) ts := by
  have := spells_blank.append_anything (h.append spells_blank rfl rfl)
  rwa [List.nil_append, List.append_nil] at this

/-- Comparisons are read up to a blank. -/
lemma spells_comparison (op : Comparison) : Spells (· == ' ') op.text.toList [.compare op] := by
  -- `<` and `>` are told from longer operators by the blank behind them
  have first : ∃ c s, op.text.toList = c :: s ∧ Text.isBlank c = false
      ∧ Token.read c s = .ok (.compare op, [])
      ∧ ∀ r, Token.read c (s ++ ' ' :: r) = .ok (.compare op, ' ' :: r) := by
    cases op <;> exact ⟨_, _, rfl, by decide, rfl, fun _ => rfl⟩
  obtain ⟨c, s, hs, hc, hlast, hread⟩ := first
  rw [hs]
  refine spells_of_read hc fun rest hrest => ?_
  cases rest with
  | nil =>
    rw [List.append_nil]
    exact hlast
  | cons d r =>
    rw [beq_iff_eq.1 (hrest d rfl)]
    exact hread r

/-- Arithmetic operators are read by themselves. -/
lemma spells_arith (op : Arith) : Spells anything op.text.toList [.arith op] := by
  cases op <;> exact spells_of_read (by decide) fun _ _ => rfl

/-- Every character that begins a word is read as one. -/
lemma read_word {c : Char} (hc : Word.isStart c = true) (s : List Char) :
    Token.read c s = .ok (.ofWord (c :: s.takeWhile Word.isPart), s.dropWhile Word.isPart) := by
  unfold Token.read
  split
  -- the cases before are of single characters, of which none begins a word
  case h_20 => rw [Word.isDigit_of_isStart hc, if_neg Bool.false_ne_true, if_pos hc]
  all_goals exact absurd hc (by decide)

/-- Every digit is read as the first of a numeral. -/
lemma read_digit {c : Char} (hc : c.isDigit = true) (s : List Char) :
    Token.read c s = .ok (.number (String.ofList (Numeral.read (c :: s)).1),
      (Numeral.read (c :: s)).2) := by
  unfold Token.read
  split
  case h_20 => rw [if_pos hc]
  all_goals exact absurd hc (by decide)

/-- The symbols, by how they are written. -/
def Token.symbols : List (List Char × Token) :=
  [(['='], .compare .eq), (['<', '='], .compare .le), (['<', '>'], .compare .ne),
    (['<'], .compare .lt), (['>', '='], .compare .ge), (['>'], .compare .gt),
    (['!', '='], .compare .ne), (['^', '='], .compare .beginsWith), (['+'], .arith .add),
    (['-'], .arith .sub), (['.'], .dot), ([','], .comma), (['('], .openParen),
    ([')'], .closeParen), (['['], .openBracket), ([']'], .closeBracket)]

/-- What a token that is read can be, and what is left behind it. -/
inductive Token.ReadFrom (c : Char) (s : List Char) : Token → List Char → Prop where
  | symbol {w t rest} :
    (w, t) ∈ Token.symbols →
    c :: s = w ++ rest →
    ReadFrom c s t rest
  | string {text rest} :
    c = '"' →
    Text.unquote s = .ok (text, rest) →
    ReadFrom c s (.string (String.ofList text)) rest
  | numeral :
    c.isDigit = true →
    ReadFrom c s (.number (String.ofList (Numeral.read (c :: s)).1)) (Numeral.read (c :: s)).2
  | word :
    Word.isStart c = true →
    ReadFrom c s (.ofWord (c :: s.takeWhile Word.isPart)) (s.dropWhile Word.isPart)

/-- Every token is read in one of these ways. -/
lemma readFrom_of_read {c : Char} {rest : List Char} {t : Token}
    (h : Token.read c s = .ok (t, rest)) : Token.ReadFrom c s t rest := by
  cases hdigit : c.isDigit with
  | true =>
    rw [read_digit hdigit] at h
    cases h
    exact .numeral hdigit
  | false =>
    cases hstart : Word.isStart c with
    | true =>
      rw [read_word hstart] at h
      cases h
      exact .word hstart
    | false =>
      unfold Token.read at h
      split at h
      case h_20 =>
        rw [hdigit, hstart] at h
        cases h
      case h_19 =>
        split at h <;> cases h
        exact .string rfl ‹_›
      all_goals cases h
      -- the symbols are of one or two characters
      all_goals first
        | exact .symbol (w := [_]) (by decide) rfl
        | exact .symbol (w := [_, _]) (by decide) rfl

/-- A numeral begins with a digit. -/
lemma isDigit_of_read_number {c : Char} {rest : List Char} {numeral : String}
    (h : Token.read c s = .ok (.number numeral, rest)) :
    ∃ d ∈ numeral.toList.head?, d.isDigit = true := by
  generalize ht : Token.number numeral = t at h
  cases readFrom_of_read h with
  | symbol hmem =>
    subst ht
    simp [Token.symbols] at hmem
  | string => cases ht
  | numeral hdigit =>
    cases ht
    rw [Numeral.read, List.takeWhile_cons_of_pos hdigit, String.toList_ofList]
    exact ⟨c, rfl, hdigit⟩
  | word =>
    rw [Token.ofWord] at ht
    split at ht <;> cases ht

/-- The numerals of a text begin with a digit. -/
lemma Lexes.isDigit_of_number {ts : List Token} {numeral : String} (h : Lexes s ts)
    (hn : .number numeral ∈ ts) : ∃ d ∈ numeral.toList.head?, d.isDigit = true := by
  induction h with
  | nil => cases hn
  | blank _ _ ih => exact ih hn
  | token _ hread _ ih =>
    rcases List.mem_cons.1 hn with rfl | hn
    · exact isDigit_of_read_number hread
    · exact ih hn

/-- What is taken from the front of a text ends where the first other character stands. -/
lemma span_append {p : Char → Bool} {rest : List Char} (hs : ∀ c ∈ s, p c = true)
    (hrest : ∀ c ∈ rest.head?, p c = false) :
    (s ++ rest).takeWhile p = s ∧ (s ++ rest).dropWhile p = rest := by
  rw [List.takeWhile_append_of_pos hs, List.dropWhile_append_of_pos hs]
  cases rest with
  | nil => exact ⟨List.append_nil s, rfl⟩
  | cons c r =>
    have hc := hrest c rfl
    rw [List.takeWhile_cons_of_neg (by simp [hc]), List.dropWhile_cons_of_neg (by simp [hc]),
      List.append_nil]
    exact ⟨rfl, rfl⟩

/-- A word is read up to a character that is no part of it. -/
lemma spells_word {c : Char} (hc : Word.isStart c = true) (hs : s.all Word.isPart = true) :
    Spells (!Word.isPart ·) (c :: s) [.ofWord (c :: s)] := by
  refine spells_of_read (Word.isBlank_of_isStart hc) fun rest hrest => ?_
  obtain ⟨htake, hdrop⟩ := span_append (p := Word.isPart) (List.all_eq_true.1 hs)
    fun d hd => by simpa using hrest d hd
  rw [read_word hc, htake, hdrop]

/-- An identifier is read up to a character that is no part of it. -/
lemma spells_identifier {name : String} (h : Word.isIdentifier name.toList = true) :
    Spells (!Word.isPart ·) name.toList [.identifier name] := by
  unfold Word.isIdentifier at h
  rw [Bool.and_eq_true, Bool.and_eq_true, Option.isNone_iff_eq_none] at h
  obtain ⟨⟨hstart, hpart⟩, hkeyword⟩ := h
  have htoken : Token.ofWord name.toList = .identifier name := by
    rw [Token.ofWord, hkeyword, String.ofList_toList]
  rw [← htoken]
  cases hname : name.toList with
  | nil =>
    rw [hname] at hstart
    cases hstart
  | cons c s =>
    rw [hname] at hstart hpart
    exact spells_word hstart (Bool.and_eq_true _ _ ▸ hpart).2

/-- A keyword is read up to a character that is no part of it. -/
lemma spells_keyword (k : Keyword) : Spells (!Word.isPart ·) k.text.toList [.keyword k] := by
  cases k <;> exact spells_word (by decide) (by decide)

/-- A string literal is read to its closing quote. -/
lemma spells_quoted (text : String) : Spells anything (Text.quoted text).toList [.string text] := by
  have hread : ∀ rest, Token.read '"' ((text.toList.flatMap Text.quotedChar ++ ['"']) ++ rest)
      = .ok (.string text, rest) := by
    intro rest
    rw [List.append_assoc, List.singleton_append]
    simp only [Token.read, Text.unquote_quoted, String.ofList_toList]
  unfold Text.quoted
  rw [String.toList_ofList]
  exact spells_of_read (by decide) fun rest _ => hread rest

/-- A character that goes on neither with a word nor with a numeral. -/
def closes (c : Char) : Bool :=
  !Word.isPart c && c != '.'

/-- A character that closes a numeral is no part of a word. -/
lemma not_isPart_of_closes {c : Char} (h : closes c = true) : (!Word.isPart c) = true := by
  unfold closes at h
  rw [Bool.and_eq_true] at h
  exact h.1

/-- A character that closes a numeral is no digit, no point and no mark of an exponent. -/
lemma not_numeral_of_closes {c : Char} (h : closes c = true) :
    c.isDigit = false ∧ c ≠ '.' ∧ c ≠ 'e' ∧ c ≠ 'E' := by
  unfold closes at h
  rw [Bool.and_eq_true, Bool.not_eq_true', bne_iff_ne] at h
  obtain ⟨hpart, hpoint⟩ := h
  refine ⟨?_, hpoint, ?_, ?_⟩
  · rw [← Bool.not_eq_true]
    intro hd
    rw [Word.isPart_of_isDigit hd] at hpart
    cases hpart
  · rintro rfl
    exact absurd hpart (by decide)
  · rintro rfl
    exact absurd hpart (by decide)

end Spells

section Numerals

open Decimal (ExponentSign Exponent)

variable {rest : List Char} {mark : Char} (n : Decimal.Numeral)

/-- The text of a fraction is read up to what is no digit and begins with no point. -/
lemma fraction_text (hrest : ∀ c ∈ rest.head?, c.isDigit = false ∧ c ≠ '.') :
    Numeral.fraction (n.fractionText ++ rest) = (n.fractionText, rest) := by
  unfold Decimal.Numeral.fractionText
  split
  next =>
    unfold Numeral.fraction
    split
    next r e =>
      rw [List.nil_append] at e
      rw [e] at hrest
      exact absurd rfl (hrest '.' rfl).2
    next => rfl
  next hne =>
    obtain ⟨htake, hdrop⟩ := span_append (List.all_eq_true.1 n.fraction_digits)
      fun c hc => (hrest c hc).1
    rw [List.cons_append, Numeral.fraction, htake, hdrop, if_neg hne]

/-- The sign of an exponent is read before its digits. -/
lemma sign_text (sign : ExponentSign) {s : List Char} (hs : ∀ c ∈ s.head?, c.isDigit = true) :
    Numeral.sign (sign.text ++ s) = (sign.text, s) := by
  cases sign with
  | bare =>
    change Numeral.sign s = ([], s)
    unfold Numeral.sign
    split
    next => exact absurd (hs '+' rfl) (by decide)
    next => exact absurd (hs '-' rfl) (by decide)
    next => rfl
  | plus => rfl
  | minus => rfl

/-- An exponent is read with a capital mark. -/
lemma exponent_text (hm : mark = 'e' ∨ mark = 'E') (hrest : ∀ c ∈ rest.head?, closes c = true) :
    Numeral.exponent (n.exponentText mark ++ rest) = (n.exponentText 'E', rest) := by
  unfold Decimal.Numeral.exponentText
  cases n.exponent with
  | none =>
    rw [Option.elim_none, Option.elim_none, List.nil_append]
    unfold Numeral.exponent
    split
    next e r =>
      obtain ⟨_, _, hsmall, hcapital⟩ := not_numeral_of_closes (hrest e rfl)
      simp [hsmall, hcapital]
    next => rfl
  | some x =>
    have hdigits := List.all_eq_true.1 (Text.all_isDigit_digits x.magnitude)
    have hhead : ∀ c ∈ (Text.digits x.magnitude ++ rest).head?, c.isDigit = true := by
      rw [List.head?_append_of_ne_nil _ (Text.digits_ne_nil x.magnitude)]
      exact fun c hc => hdigits c (List.mem_of_mem_head? hc)
    have hmark : (mark == 'e' || mark == 'E') = true := by
      rcases hm with rfl | rfl <;> rfl
    obtain ⟨htake, hdrop⟩ := span_append hdigits fun c hc => (not_numeral_of_closes (hrest c hc)).1
    rw [Option.elim_some, Option.elim_some, Exponent.text, List.cons_append, List.append_assoc,
      Numeral.exponent, sign_text x.sign hhead]
    dsimp only
    rw [htake, hdrop, if_pos]
    · rfl
    · rw [hmark, Bool.true_and, Bool.not_eq_true', List.isEmpty_eq_false_iff]
      exact Text.digits_ne_nil x.magnitude

/-- A numeral is read with a capital mark, up to a character that does not go on with it. -/
lemma read_numeral (hm : mark = 'e' ∨ mark = 'E') (hrest : ∀ c ∈ rest.head?, closes c = true) :
    Numeral.read (n.text mark ++ rest) = (n.text 'E', rest) := by
  have hexponent : ∀ c ∈ (n.exponentText mark ++ rest).head?, c.isDigit = false ∧ c ≠ '.' := by
    unfold Decimal.Numeral.exponentText
    cases n.exponent with
    | none =>
      intro c hc
      obtain ⟨hdigit, hpoint, _⟩ := not_numeral_of_closes (hrest c hc)
      exact ⟨hdigit, hpoint⟩
    | some x =>
      rintro _ ⟨⟩
      rcases hm with rfl | rfl <;> decide
  have hfraction : ∀ c ∈ (n.fractionText ++ (n.exponentText mark ++ rest)).head?,
      c.isDigit = false := by
    unfold Decimal.Numeral.fractionText
    split
    next => exact fun c hc => (hexponent c hc).1
    next =>
      rintro _ ⟨⟩
      decide
  obtain ⟨htake, hdrop⟩ := span_append (List.all_eq_true.1 n.whole_digits) hfraction
  unfold Decimal.Numeral.text
  rw [List.append_assoc, List.append_assoc, Numeral.read, htake, hdrop, fraction_text n hexponent]
  dsimp only
  rw [exponent_text n hm hrest, List.append_assoc]

/-- A numeral spells its token. -/
lemma spells_numeral (hm : mark = 'e' ∨ mark = 'E') :
    Spells closes (n.text mark) [.number (String.ofList (n.text 'E'))] := by
  obtain ⟨c, s, hs⟩ := List.exists_cons_of_ne_nil n.whole_ne_nil
  have hc : c.isDigit = true := List.all_eq_true.1 n.whole_digits c (by simp [hs])
  intro rest us hrest hus
  have hread := read_numeral n hm hrest
  have htext : n.text mark ++ rest = c :: (s ++ (n.fractionText ++ n.exponentText mark) ++ rest) := by
    rw [Decimal.Numeral.text, hs]
    rfl
  rw [htext] at hread ⊢
  refine .token (isBlank_of_isDigit hc) ?_ hus
  rw [read_digit hc, hread]

end Numerals

end TableQuery
