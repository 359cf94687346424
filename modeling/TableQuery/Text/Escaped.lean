import TableQuery.Text.Unprintable
import TableQuery.Text.Digits

/-!
# Escaped text

Text between quotes as error messages show it: a character that would not print by itself is
written by its code.
-/

namespace TableQuery.Text

/-- How a character stands inside an escaped text. -/
def escapedChar (c : Char) : List Char :=
  match c with
  | '"' => ['\\', '"']
  | '\\' => ['\\', '\\']
  | '\n' => ['\\', 'n']
  | '\t' => ['\\', 't']
  | '\r' => ['\\', 'r']
  | '\x00' => ['\\', '0']
  | c =>
    if isUnprintable c then
      ['\\', 'u', '\x7b'] ++ Nat.toDigits 16 c.toNat ++ ['\x7d']
    else [c]

/-- The text in quotes, each character escaped where it has to be. -/
def escaped (s : String) : String :=
  String.ofList ('"' :: s.toList.flatMap escapedChar ++ ['"'])

end TableQuery.Text
