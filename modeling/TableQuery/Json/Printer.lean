import TableQuery.Json.Basic

/-!
# Writing JSON

A tree is written over several lines, two blanks for each level. Empty arrays and objects stay on
one line.
-/

namespace TableQuery.Json

/-- The hexadecimal escape of a control character. -/
def hexEscape (c : Char) : List Char :=
  let digits := Nat.toDigits 16 c.toNat
  '\\' :: 'u' :: List.replicate (4 - digits.length) '0' ++ digits

/-- How a character stands inside a string. -/
def stringChar (c : Char) : List Char :=
  match c with
  | '"' => ['\\', '"']
  | '\\' => ['\\', '\\']
  | '\n' => ['\\', 'n']
  | '\r' => ['\\', 'r']
  | '\t' => ['\\', 't']
  | '\x08' => ['\\', 'b']
  | '\x0c' => ['\\', 'f']
  | c => if c < ' ' then hexEscape c else [c]

/-- The string that writes a text. -/
def stringText (s : String) : String :=
  String.ofList ('"' :: s.toList.flatMap stringChar ++ ['"'])

/-- A new line at a level. -/
def newLine (level : Nat) : String :=
  String.ofList ('\n' :: List.replicate (2 * level) ' ')

/-- The texts of the parts of something at a level, between brackets one level further out. -/
def bracketed (level : Nat) (opening : String) (parts : List String) (closing : String) : String :=
  if parts.isEmpty then opening ++ closing
  else
    opening ++ newLine (level + 1) ++ ("," ++ newLine (level + 1)).intercalate parts
      ++ newLine level ++ closing

mutual

/-- The text of a tree that stands at a level. -/
def pretty (level : Nat) : Json → String
  | .null => "null"
  | .bool b => if b then "true" else "false"
  | .number numeral => numeral
  | .string s => stringText s
  | .array elements _ => bracketed level "[" (elementTexts (level + 1) elements) "]"
  | .object members _ => bracketed level "\x7b" (memberTexts (level + 1) members) "\x7d"
  | .garbled | .misnamed _ | .cut => ""

/-- The texts of elements that stand at a level. -/
def elementTexts (level : Nat) : List Json → List String
  | [] => []
  | j :: rest => j.pretty level :: elementTexts level rest

/-- The texts of members that stand at a level. -/
def memberTexts (level : Nat) : List (String × Json) → List String
  | [] => []
  | (k, j) :: rest => (stringText k ++ ": " ++ j.pretty level) :: memberTexts level rest

end

end TableQuery.Json
