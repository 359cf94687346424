import Mathlib.Tactic.Common
import TableQuery.Text.Quoted

/-!
# Reading quoted text

Reading a string literal takes back what quoting adds.
-/

namespace TableQuery.Text

/-- A character is read back from the way it stands in a string literal. -/
lemma unquote_quotedChar (c : Char) (s : List Char) :
    unquote (quotedChar c ++ s) = (unquote s).map fun (text, rest) => (c :: text, rest) := by
  unfold quotedChar
  split
  next => rfl
  next => rfl
  next => rfl
  next => rfl
  next hquote hbackslash _ _ =>
    rw [List.singleton_append]
    conv_lhs => unfold unquote
    split
    next e => cases e
    next e =>
      cases e
      exact absurd rfl hquote
    next e =>
      cases e
      exact absurd rfl hbackslash
    next e =>
      cases e
      exact absurd rfl hbackslash
    next e =>
      cases e
      rfl

/-- A string literal is read as the text that it writes, up to its closing quote. -/
lemma unquote_quoted (s rest : List Char) :
    unquote (s.flatMap quotedChar ++ '"' :: rest) = .ok (s, rest) := by
  induction s with
  | nil => rfl
  | cons c s ih =>
    rw [List.flatMap_cons, List.append_assoc, unquote_quotedChar, ih]
    rfl

end TableQuery.Text
