/-!
# Quoted text

The string literals of expressions: quotes and backslashes are escaped, and so are line feeds and
tabulators. Reading takes back exactly what quoting adds.
-/

namespace TableQuery.Text

/-- How a character stands inside a string literal. -/
def quotedChar (c : Char) : List Char :=
  match c with
  | '"' => ['\\', '"']
  | '\\' => ['\\', '\\']
  | '\n' => ['\\', 'n']
  | '\t' => ['\\', 't']
  | c => [c]

/-- The string literal that writes a text. -/
def quoted (s : String) : String :=
  String.ofList ('"' :: s.toList.flatMap quotedChar ++ ['"'])

/-- The character that a letter stands for after a backslash. -/
def unescaped? (c : Char) : Option Char :=
  match c with
  | 'n' => some '\n'
  | 't' => some '\t'
  | '"' => some '"'
  | '\\' => some '\\'
  | _ => none

/-- What can be wrong with a string literal, and the text after the fault. -/
inductive Unquotable where
  /-- the text ends before the closing quote -/
  | unclosed
  /-- the text ends after a backslash -/
  | unfinishedEscape
  /-- no escape sequence has this character, and `rest` follows it -/
  | unknownEscape (c : Char) (rest : List Char)
  deriving Repr, DecidableEq

/-- Reads a string literal after its opening quote: its text, and what follows the closing quote. -/
def unquote : List Char → Except Unquotable (List Char × List Char)
  | [] => .error .unclosed
  | '"' :: s => .ok ([], s)
  | ['\\'] => .error .unfinishedEscape
  | '\\' :: c :: s =>
    match unescaped? c with
    | some d => (unquote s).map fun (text, rest) => (d :: text, rest)
    | none => .error (.unknownEscape c s)
  | c :: s => (unquote s).map fun (text, rest) => (c :: text, rest)

/-- What follows a string literal is shorter than the literal and what follows it. -/
theorem length_rest_of_unquote {s text rest : List Char} (h : unquote s = .ok (text, rest)) :
    rest.length < s.length := by
  fun_induction unquote s generalizing text rest with
  | case1 => cases h
  | case2 s => cases h; simp
  | case3 => cases h
  | case4 c s d hd ih =>
    cases hs : unquote s with
    | error e => simp [hs, Except.map] at h
    | ok r =>
      simp only [hs, Except.map, Except.ok.injEq, Prod.mk.injEq] at h
      have := @ih r.1 r.2 hs
      simp only [List.length_cons]
      rw [← h.2]
      omega
  | case5 => cases h
  | case6 c s _ _ _ ih =>
    cases hs : unquote s with
    | error e => simp [hs, Except.map] at h
    | ok r =>
      simp only [hs, Except.map, Except.ok.injEq, Prod.mk.injEq] at h
      have := @ih r.1 r.2 hs
      simp only [List.length_cons]
      rw [← h.2]
      omega

end TableQuery.Text
