import TableQuery.Expr.Token
import TableQuery.Text.Blank
import TableQuery.Text.Quoted

/-!
# Reading tokens

A text is cut into tokens from the left, each as long as it can be, with blanks between them. The
whole text is read before any of it is parsed.
-/

namespace TableQuery

/-- The text of a point with digits after it, and what follows; no point if no digit follows. -/
def Numeral.fraction (s : List Char) : List Char × List Char :=
  match s with
  | '.' :: r =>
    let digits := r.takeWhile Char.isDigit
    if digits.isEmpty then ([], s) else ('.' :: digits, r.dropWhile Char.isDigit)
  | _ => ([], s)

/-- The sign before an exponent, and what follows. -/
def Numeral.sign : List Char → List Char × List Char
  | '+' :: r => (['+'], r)
  | '-' :: r => (['-'], r)
  | r => ([], r)

/-- The text of an exponent, with a capital `E`, and what follows; none if it has no digit. -/
def Numeral.exponent (s : List Char) : List Char × List Char :=
  match s with
  | e :: r =>
    let (sign, r) := sign r
    let digits := r.takeWhile Char.isDigit
    if (e == 'e' || e == 'E') && !digits.isEmpty then
      ('E' :: sign ++ digits, r.dropWhile Char.isDigit)
    else ([], s)
  | [] => ([], s)

/-- The numeral at the front of a text, and what follows. -/
def Numeral.read (s : List Char) : List Char × List Char :=
  let (fraction, r) := fraction (s.dropWhile Char.isDigit)
  let (exponent, r) := exponent r
  (s.takeWhile Char.isDigit ++ fraction ++ exponent, r)

/-- A text that begins with no token: what was found, what was expected and the text from there. -/
structure Token.Fault where
  found : Found
  expected : Expected
  rest : List Char

/-- The error of an unfinished or misspelt string literal. -/
def Token.Fault.ofUnquotable : Text.Unquotable → Token.Fault
  | .unclosed => ⟨.endOfInput, .closingQuote, []⟩
  | .unfinishedEscape => ⟨.endOfInput, .escapeSequence, []⟩
  | .unknownEscape c rest => ⟨.escape c, .escapeSequence, rest⟩

/-- The token at the front of a text without blanks before it, and what follows. -/
def Token.read (c : Char) (s : List Char) : Except Token.Fault (Token × List Char) :=
  match c, s with
  | '=', _ => .ok (.compare .eq, s)
  | '<', '=' :: r => .ok (.compare .le, r)
  | '<', '>' :: r => .ok (.compare .ne, r)
  | '<', _ => .ok (.compare .lt, s)
  | '>', '=' :: r => .ok (.compare .ge, r)
  | '>', _ => .ok (.compare .gt, s)
  | '!', '=' :: r => .ok (.compare .ne, r)
  | '!', _ => .error ⟨.character '!', .equals, s⟩
  | '^', '=' :: r => .ok (.compare .beginsWith, r)
  | '^', _ => .error ⟨.character '^', .equals, s⟩
  | '+', _ => .ok (.arith .add, s)
  | '-', _ => .ok (.arith .sub, s)
  | '.', _ => .ok (.dot, s)
  | ',', _ => .ok (.comma, s)
  | '(', _ => .ok (.openParen, s)
  | ')', _ => .ok (.closeParen, s)
  | '[', _ => .ok (.openBracket, s)
  | ']', _ => .ok (.closeBracket, s)
  | '"', _ =>
    match Text.unquote s with
    | .ok (text, r) => .ok (.string (String.ofList text), r)
    | .error e => .error (.ofUnquotable e)
  | c, _ =>
    if c.isDigit then
      let (numeral, r) := Numeral.read (c :: s)
      .ok (.number (String.ofList numeral), r)
    else if Word.isStart c then
      .ok (.ofWord (c :: s.takeWhile Word.isPart), s.dropWhile Word.isPart)
    else .error ⟨.character c, .token, c :: s⟩

/-- A fraction, which may be missing, leaves no more than there was. -/
theorem Numeral.length_fraction (s : List Char) : (fraction s).2.length ≤ s.length := by
  unfold fraction
  split
  · simp only
    split
    · exact Nat.le_refl _
    · simp only [List.length_cons]
      have := (List.dropWhile_suffix Char.isDigit (l := ‹List Char›)).length_le
      omega
  · exact Nat.le_refl _

/-- A sign, which may be missing, leaves no more than there was. -/
theorem Numeral.length_sign (s : List Char) : (sign s).2.length ≤ s.length := by
  unfold sign
  split <;> simp

/-- An exponent, which may be missing, leaves no more than there was. -/
theorem Numeral.length_exponent (s : List Char) : (exponent s).2.length ≤ s.length := by
  unfold exponent
  split
  · rename_i e r
    simp only
    split
    · have := (List.dropWhile_suffix Char.isDigit (l := (sign r).2)).length_le
      have := length_sign r
      simp only [List.length_cons]
      omega
    · exact Nat.le_refl _
  · exact Nat.le_refl _

/-- A numeral takes the digit that it begins with. -/
theorem Numeral.length_read {c : Char} (h : c.isDigit = true) (s : List Char) :
    (read (c :: s)).2.length ≤ s.length := by
  have hd := (List.dropWhile_suffix Char.isDigit (l := s)).length_le
  have hf := length_fraction (s.dropWhile Char.isDigit)
  have he := length_exponent (fraction (s.dropWhile Char.isDigit)).2
  simp only [read, List.dropWhile_cons, h, if_true]
  omega

/-- What follows a token is no longer than what followed its first character. -/
theorem Token.length_read {c : Char} {s r : List Char} {t : Token}
    (h : Token.read c s = .ok (t, r)) : r.length ≤ s.length := by
  unfold Token.read at h
  split at h <;> try (injection h with h; injection h with _ h; subst h; grind)
  · cases h
  · cases h
  · split at h
    · rename_i hq
      injection h with h
      injection h with _ h
      subst h
      exact Nat.le_of_lt (Text.length_rest_of_unquote hq)
    · cases h
  · split at h
    · rename_i hd
      injection h with h
      injection h with _ h
      subst h
      exact Numeral.length_read hd _
    · split at h
      · injection h with h
        injection h with _ h
        subst h
        exact (List.dropWhile_suffix Word.isPart).length_le
      · cases h

/-- The tokens of the rest `s` of a text of `total` characters. -/
def Token.readAll (total : Nat) (s : List Char) : Except SyntaxError (List Spanned) :=
  match _blank : s.dropWhile Text.isBlank with
  | [] => .ok []
  | c :: r =>
    match _token : Token.read c r with
    | .error f => .error ⟨total - f.rest.length, f.found, f.expected⟩
    | .ok (t, rest) =>
      (readAll total rest).map (⟨t, total - (c :: r).length⟩ :: ·)
termination_by s.length
decreasing_by
  have := Token.length_read _token
  have := (List.dropWhile_suffix Text.isBlank (l := s)).length_le
  simp only [_blank, List.length_cons] at this
  omega

/-- The tokens of a text. -/
def tokens (text : List Char) : Except SyntaxError (List Spanned) :=
  Token.readAll text.length text

end TableQuery
