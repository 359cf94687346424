import TableQuery.Proofs.Expr.Acceptance
import TableQuery.Proofs.Expr.Lexemes

/-!
# Where a text stops being an expression

A text that is no expression has a place where it stops being one: a token that none goes on with, a
character that begins no token, or an escape sequence that writes nothing. An error points at that
place, but for a lone `!` or `^` and for an escape sequence, where it points behind what it names.
-/

namespace TableQuery

namespace Text

/-- The characters of a string literal between its quotes. -/
inductive Written : List Char → Prop where
  | nil :
    Written []
  | char {c s} :
    c ≠ '"' →
    c ≠ '\\' →
    Written s →
    Written (c :: s)
  | escape {c s} :
    (unescaped? c).isSome = true →
    Written s →
    Written ('\\' :: c :: s)

/-- What is between the quotes of a string literal is written as it should be up to a fault. -/
inductive Breaks : Unquotable → List Char → Prop where
  | unclosed {s} :
    Written s →
    Breaks .unclosed s
  | unfinishedEscape {w} :
    Written w →
    Breaks .unfinishedEscape (w ++ ['\\'])
  | unknownEscape {w c r} :
    Written w →
    unescaped? c = none →
    Breaks (.unknownEscape c r) (w ++ '\\' :: c :: r)

section Written

variable {u : Unquotable} {c c' : Char} {s w w' r r' : List Char}

/-- A character that stands for itself, in front of a literal that breaks. -/
lemma Breaks.char (hquote : c ≠ '"') (hslash : c ≠ '\\') (h : Breaks u s) : Breaks u (c :: s) := by
  cases h with
  | unclosed hs => exact .unclosed (.char hquote hslash hs)
  | unfinishedEscape hw => exact .unfinishedEscape (.char hquote hslash hw)
  | unknownEscape hw hnone => exact .unknownEscape (.char hquote hslash hw) hnone

/-- An escape that is known, in front of a literal that breaks. -/
lemma Breaks.escape (hc : (unescaped? c).isSome = true) (h : Breaks u s) :
    Breaks u ('\\' :: c :: s) := by
  cases h with
  | unclosed hs => exact .unclosed (.escape hc hs)
  | unfinishedEscape hw => exact .unfinishedEscape (.escape hc hw)
  | unknownEscape hw hnone => exact .unknownEscape (.escape hc hw) hnone

/-- A string literal that cannot be read breaks at the fault. -/
lemma breaks_of_unquote_error (h : unquote s = .error u) : Breaks u s := by
  fun_induction unquote s generalizing u with
  | case1 =>
    cases h
    exact .unclosed .nil
  | case2 s => cases h
  | case3 =>
    cases h
    exact .unfinishedEscape .nil
  | case4 c s d hd ih => exact (ih (map_eq_error_iff.1 h)).escape (by rw [hd]; rfl)
  | case5 c s hc =>
    cases h
    exact .unknownEscape .nil hc
  | case6 c s hquote hlast hescape ih =>
    refine (ih (map_eq_error_iff.1 h)).char hquote fun hc => ?_
    cases s with
    | nil => exact hlast hc rfl
    | cons d r => exact hescape d r hc rfl

/-- A string literal with an escape sequence that writes nothing cannot be read. -/
lemma Written.unquote_escape (h : Written w) (hc : unescaped? c = none) :
    unquote (w ++ '\\' :: c :: r) = .error (.unknownEscape c r) := by
  induction h with
  | nil =>
    rw [List.nil_append, unquote, hc]
  | @char d w hquote hslash _ ih =>
    rw [List.cons_append, unquote, ih]
    · rfl
    · exact hquote
    · exact fun e _ => hslash e
    · exact fun _ _ e _ => hslash e
  | @escape d w hd _ ih =>
    obtain ⟨x, hx⟩ := Option.isSome_iff_exists.1 hd
    rw [List.cons_append, List.cons_append, unquote, hx, ih]
    rfl

/-- The first escape sequence that writes nothing is the only one of its kind. -/
lemma Written.escape_unique (h : Written w) (h' : Written w') (hc : unescaped? c = none)
    (hc' : unescaped? c' = none) (e : w ++ '\\' :: c :: r = w' ++ '\\' :: c' :: r') : w = w' := by
  have hread := h.unquote_escape hc (r := r)
  rw [e, h'.unquote_escape hc'] at hread
  cases hread
  exact List.append_cancel_right e

end Written

end Text

open Grammar

/-- The place of a text where it stops being an expression, with what is found there. -/
inductive Offends (text : List Char) : Found → Nat → Prop where
  /-- the tokens before this one belong to an expression, and none begins with it behind them -/
  | token {before c r mid pre t} :
    text = before ++ c :: r →
    Cuts 0 text pre (c :: r) →
    Text.isBlank c = false →
    Token.read c r = .ok (t, mid) →
    Viable (pre.map Spanned.token) →
    ¬ Viable (pre.map Spanned.token ++ [t]) →
    Offends text (.token t) before.length
  /-- the tokens of the text belong to an expression, but are none themselves -/
  | endOfInput {sp} :
    Cuts 0 text sp [] →
    Viable (sp.map Spanned.token) →
    (¬ ∃ e, Derives 1 (sp.map Spanned.token) e) →
    Offends text .endOfInput text.length
  /-- this character begins no token -/
  | character {before c r pre} :
    text = before ++ c :: r →
    Cuts 0 text pre (c :: r) →
    Text.isBlank c = false →
    c ≠ '"' →
    (∀ p, Token.read c r ≠ .ok p) →
    Offends text (.character c) before.length
  /-- the text ends within a string literal -/
  | unclosed {before s pre u} :
    text = before ++ '"' :: s →
    Cuts 0 text pre ('"' :: s) →
    Text.Breaks u s →
    u = .unclosed ∨ u = .unfinishedEscape →
    Offends text .endOfInput text.length
  /-- this escape sequence of a string literal writes nothing -/
  | escape {before w c r pre} :
    text = before ++ '"' :: (w ++ '\\' :: c :: r) →
    Cuts 0 text pre ('"' :: (w ++ '\\' :: c :: r)) →
    Text.Written w →
    Text.unescaped? c = none →
    Offends text (.escape c) (before ++ '"' :: w).length

/-- How far behind its place what is found is said to be. -/
def Found.overrun : Found → Nat
  | .character '!' | .character '^' => 1
  | .escape _ => 2
  | _ => 0

section Places

variable {n : Nat} {s r r' : List Char} {c c' : Char} {pre pre' : List Spanned} {p q : Nat}
  {found : Found} {f : Token.Fault}

/-- Of two places where the tokens of a text are cut off, one is behind the token at the other. -/
lemma Cuts.compare (h : Cuts n s pre (c :: r)) (h' : Cuts n s pre' (c' :: r'))
    (hc : Text.isBlank c = false) (hc' : Text.isBlank c' = false) :
    (pre = pre' ∧ c :: r = c' :: r')
      ∨ (∃ t i mid more, Token.read c r = .ok (t, mid) ∧ pre' = pre ++ ⟨t, i⟩ :: more)
      ∨ ∃ t i mid more, Token.read c' r' = .ok (t, mid) ∧ pre = pre' ++ ⟨t, i⟩ :: more := by
  generalize hrest : c :: r = rest at h
  induction h generalizing pre' with
  | nil =>
    subst hrest
    cases h' with
    | nil => exact .inl ⟨rfl, rfl⟩
    | blank hblank _ => exact absurd (hblank.symm.trans hc) nofun
    | token _ hread _ => exact .inr (.inl ⟨_, _, _, _, hread, rfl⟩)
  | blank hblank _ ih =>
    cases h' with
    | nil => exact absurd (hblank.symm.trans hc') nofun
    | blank _ h' => exact ih h' hrest
    | token hblank' _ _ => exact absurd (hblank.symm.trans hblank') nofun
  | token hblank hread _ ih =>
    cases h' with
    | nil => exact .inr (.inr ⟨_, _, _, _, hread, rfl⟩)
    | blank hblank' _ => exact absurd (hblank'.symm.trans hblank) nofun
    | token _ hread' h' =>
      cases hread.symm.trans hread'
      rcases ih h' hrest with ⟨rfl, e⟩ | ⟨t, i, mid, more, ht, rfl⟩ | ⟨t, i, mid, more, ht, rfl⟩
      · exact .inl ⟨rfl, e⟩
      · exact .inr (.inl ⟨t, i, mid, more, ht, rfl⟩)
      · exact .inr (.inr ⟨t, i, mid, more, ht, rfl⟩)

/-- What stands before the same rest of a text is the same. -/
lemma length_eq_of_append {before before' rest : List Char} (h : s = before ++ rest)
    (h' : s = before' ++ rest) : before'.length = before.length :=
  congrArg List.length (List.append_cancel_right (h'.symm.trans h))

/-- A character that begins no token stands at its place. -/
lemma Offends.character_at (h : Offends s (.character c) p) : s[p]? = some c := by
  cases h with
  | character hs => rw [hs, List.getElem?_append_right (Nat.le_refl _), Nat.sub_self]; rfl

/-- An escape sequence begins with a backslash at its place. -/
lemma Offends.escape_at (h : Offends s (.escape c) p) : s[p]? = some '\\' := by
  cases h with
  | @escape before w _ r _ hs =>
    have hsplit : s = (before ++ '"' :: w) ++ '\\' :: c :: r := by
      rw [hs, List.append_assoc, List.cons_append]
    rw [hsplit, List.getElem?_append_right (Nat.le_refl _), Nat.sub_self]
    rfl

/-- What is found stands at one place only. -/
lemma Offends.unique (h : Offends s found p) (h' : Offends s found q) : q = p := by
  cases h with
  | token htext hcuts hc hread hviable hnot =>
    cases h' with
    | token htext' hcuts' hc' hread' hviable' hnot' =>
      -- behind the first token that does not go on with an expression no other can be the first
      have behind {pre pre' more : List Spanned} {t : Token} {i : Nat}
          (hnot : ¬ Viable (pre.map Spanned.token ++ [t]))
          (hviable : Viable (pre'.map Spanned.token)) (e : pre' = pre ++ ⟨t, i⟩ :: more) :
          False := by
        rw [e, List.map_append, List.map_cons, ← List.singleton_append, ← List.append_assoc]
          at hviable
        exact hnot hviable.of_append
      rcases hcuts.compare hcuts' hc hc' with ⟨-, e⟩ | ⟨_, _, _, _, ht, e⟩ | ⟨_, _, _, _, ht, e⟩
      · exact length_eq_of_append htext (e ▸ htext')
      · cases hread.symm.trans ht
        exact (behind hnot hviable' e).elim
      · cases hread'.symm.trans ht
        exact (behind hnot' hviable e).elim
  | endOfInput | unclosed => cases h' <;> rfl
  | character htext hcuts hc _ hread =>
    cases h' with
    | character htext' hcuts' hc' _ hread' =>
      rcases hcuts.compare hcuts' hc hc' with ⟨-, e⟩ | ⟨_, _, _, _, ht, -⟩ | ⟨_, _, _, _, ht, -⟩
      · exact length_eq_of_append htext (e ▸ htext')
      · exact absurd ht (hread _)
      · exact absurd ht (hread' _)
  | escape htext hcuts hw hc =>
    cases h' with
    | escape htext' hcuts' hw' hc' =>
      have broken {c : Char} {w r : List Char} (hw : Text.Written w) (hc : Text.unescaped? c = none)
          (p : Token × List Char) : Token.read '"' (w ++ '\\' :: c :: r) ≠ .ok p := by
        rw [Token.read, hw.unquote_escape hc]
        intro e
        cases e
      rcases hcuts.compare hcuts' rfl rfl with ⟨-, e⟩ | ⟨_, _, _, _, ht, -⟩ | ⟨_, _, _, _, ht, -⟩
      · rw [List.cons.injEq] at e
        have hlength := length_eq_of_append htext (e.2 ▸ htext')
        rw [List.length_append, List.length_append, hlength, hw.escape_unique hw' hc hc' e.2]
      · exact absurd ht (broken hw hc _)
      · exact absurd ht (broken hw' hc' _)

/-- Of characters only `!` and `^` are said to stand behind their place. -/
lemma overrun_character (h : c ≠ '!') (h' : c ≠ '^') : (Found.character c).overrun = 0 := by
  unfold Found.overrun
  split
  next e =>
    cases e
    exact absurd rfl h
  next e =>
    cases e
    exact absurd rfl h'
  next e => cases e
  next => rfl

/-- A character that begins no token is what is found, unless a string literal begins with it. -/
lemma fault_of_read (h : Token.read c s = .error f) :
    (c ≠ '"' ∧ f.found = .character c ∧ f.rest.length + f.found.overrun = s.length + 1)
      ∨ c = '"' ∧ ∃ u, Text.unquote s = .error u ∧ f = .ofUnquotable u := by
  unfold Token.read at h
  split at h
  case h_8 | h_10 =>
    cases h
    exact .inl ⟨by decide, rfl, rfl⟩
  case h_19 =>
    split at h
    next => cases h
    next u hu =>
      cases h
      exact .inr ⟨rfl, u, hu, rfl⟩
  case h_20 =>
    split at h
    · cases h
    · split at h
      · cases h
      · cases h
        have hoverrun : (Found.character c).overrun = 0 :=
          overrun_character ‹c = '!' → False› ‹c = '^' → False›
        exact .inl ⟨‹c = '"' → False›, rfl, by rw [hoverrun]; rfl⟩
  all_goals cases h

/-- A text without tokens has a place where none begins. -/
lemma offends_of_tokens_error {e : SyntaxError} (h : tokens s = .error e) :
    ∃ p, Offends s e.found p ∧ e.position = p + e.found.overrun := by
  unfold tokens at h
  rcases cuts_of_readAll (Nat.le_refl s.length) with
    ⟨_, hok, _⟩ | ⟨pre, c, r, f, hcuts, hc, hread, herror⟩
  · rw [hok] at h
    cases h
  · rw [herror] at h
    cases h
    rw [Nat.sub_self] at hcuts
    obtain ⟨before, hs, -⟩ := hcuts.opens
    have hlength := congrArg List.length hs
    rw [List.length_append, List.length_cons] at hlength
    rcases fault_of_read hread with ⟨hquote, hfound, hrest⟩ | ⟨rfl, u, hu, rfl⟩
    · refine ⟨before.length, ?_, ?_⟩
      · rw [hfound]
        exact .character hs hcuts hc hquote fun p hp => nomatch hread.symm.trans hp
      · dsimp only
        omega
    · have hbreaks := Text.breaks_of_unquote_error hu
      cases hbreaks with
      | unclosed hw => exact ⟨s.length, .unclosed hs hcuts (.unclosed hw) (.inl rfl), rfl⟩
      | unfinishedEscape hw =>
        exact ⟨s.length, .unclosed hs hcuts (.unfinishedEscape hw) (.inr rfl), rfl⟩
      | @unknownEscape w c r hw hnone =>
        refine ⟨(before ++ '"' :: w).length, .escape hs hcuts hw hnone, ?_⟩
        change s.length - r.length = (before ++ '"' :: w).length + 2
        rw [List.length_append, List.length_cons, List.length_cons] at *
        omega

/-- Tokens that are no expression have a place where they stop being one. -/
lemma offends_of_whole_error {sp : List Spanned} {f : Parser.Fault} (hsp : tokens s = .ok sp)
    (h : Parser.whole sp = .error f) :
    ∃ p, Offends s (f.toSyntaxError s.length).found p
      ∧ (f.toSyntaxError s.length).position = p + (f.toSyntaxError s.length).found.overrun := by
  obtain ⟨pre, rfl, hviable, hnext, hend⟩ := Parser.viable_of_whole_eq_error h
  have hcuts := cuts_of_tokens hsp
  obtain ⟨rest, expected⟩ := f
  cases rest with
  | nil =>
    rw [List.append_nil] at hcuts
    exact ⟨s.length, .endOfInput hcuts hviable (hend rfl), rfl⟩
  | cons t more =>
    obtain ⟨t, i⟩ := t
    obtain ⟨before, c, r, mid, hs, hi, hpre, hc, hread, -⟩ := hcuts.locate
    refine ⟨before.length, .token hs hpre hc hread hviable (hnext t rfl), ?_⟩
    rw [← Nat.zero_add before.length, ← hi]
    rfl

end Places

/-- An error points at the one place where the text stops being an expression, or behind it: by one
character if a lone `!` or `^` stands there, and by two if an escape sequence does that writes
nothing. -/
theorem Expr.parse_error_place {text : String} {e : SyntaxError} (h : Expr.parse text = .error e) :
    ∃ p, (∀ q, Offends text.toList e.found q ↔ q = p) ∧ e.position = p + e.found.overrun := by
  have hplace : ∃ p, Offends text.toList e.found p ∧ e.position = p + e.found.overrun := by
    unfold Expr.parse parseChars at h
    rcases bind_eq_error_iff.1 h with h | ⟨sp, hsp, h⟩
    · exact offends_of_tokens_error h
    · cases hwhole : Parser.whole sp with
      | ok e' =>
        rw [hwhole] at h
        cases h
      | error f =>
        rw [hwhole] at h
        cases h
        exact offends_of_whole_error hsp hwhole
  obtain ⟨p, hp, hposition⟩ := hplace
  refine ⟨p, fun q => ⟨hp.unique, ?_⟩, hposition⟩
  rintro rfl
  exact hp

/-- A second operator, where an operand should stand. -/
theorem Expr.parse_error_place_operand :
    Expr.parse "a = = 1" = .error ⟨4, .token (.compare .eq), .expression⟩
      ∧ ∀ q, Offends "a = = 1".toList (.token (.compare .eq)) q ↔ q = 4 := by
  have hread : (Expr.parse "a = = 1").map (fun _ => ())
      = .error ⟨4, .token (.compare .eq), .expression⟩ := by
    decide +kernel
  have h := map_eq_error_iff.1 hread
  obtain ⟨p, hp, rfl⟩ := Expr.parse_error_place h
  exact ⟨h, hp⟩

/-- Two errors that point behind what they name, which in either text stands at the place 2. -/
theorem Expr.parse_error_behind :
    (∃ e, Expr.parse "a ! b" = .error e ∧ e.position = 3 ∧ e.found = .character '!'
        ∧ ¬ Offends "a ! b".toList e.found e.position)
      ∧ ∃ e, Expr.parse "\"a\\q\"" = .error e ∧ e.position = 4 ∧ e.found = .escape 'q'
        ∧ ¬ Offends "\"a\\q\"".toList e.found e.position := by
  have hbang : (Expr.parse "a ! b").map (fun _ => ()) = .error ⟨3, .character '!', .equals⟩ := by
    decide +kernel
  have hescape : (Expr.parse "\"a\\q\"").map (fun _ => ())
      = .error ⟨4, .escape 'q', .escapeSequence⟩ := by
    decide +kernel
  exact ⟨⟨_, map_eq_error_iff.1 hbang, rfl, rfl, fun h => absurd h.character_at (by decide)⟩,
    ⟨_, map_eq_error_iff.1 hescape, rfl, rfl, fun h => absurd h.escape_at (by decide)⟩⟩

end TableQuery
