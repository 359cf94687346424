import TableQuery.Operator
import TableQuery.Text.Escaped
import TableQuery.Word

/-!
# Tokens

The tokens of an expression and where they stand, and what a syntax error says about them.
-/

namespace TableQuery

/-- A token of an expression. -/
inductive Token where
  | identifier (name : String)
  /-- a string literal, by the text that it writes -/
  | string (text : String)
  /-- a numeral as written, with a capital `E` before its exponent -/
  | number (numeral : String)
  | keyword (k : Keyword)
  | compare (op : Comparison)
  | arith (op : Arith)
  | dot | comma | openParen | closeParen | openBracket | closeBracket
  deriving Repr, DecidableEq, Inhabited

/-- A token with the number of characters before it. -/
structure Spanned where
  token : Token
  start : Nat
  deriving Repr, DecidableEq, Inhabited

/-- The token that a word is. -/
def Token.ofWord (word : List Char) : Token :=
  match Keyword.ofWord? word with
  | some k => .keyword k
  | none => .identifier (String.ofList word)

/-- A token as error messages name it. -/
def Token.text : Token → String
  | .identifier name => "identifier '" ++ name ++ "'"
  | .string s => "string " ++ Text.escaped s
  | .number numeral => "number " ++ numeral
  | .keyword k => "'" ++ k.text ++ "'"
  | .compare op => "'" ++ op.text ++ "'"
  | .arith op => "'" ++ op.text ++ "'"
  | .dot => "'.'"
  | .comma => "','"
  | .openParen => "'('"
  | .closeParen => "')'"
  | .openBracket => "'['"
  | .closeBracket => "']'"

/-- What stands where an expression stops being one. -/
inductive Found where
  | token (t : Token)
  | character (c : Char)
  /-- a backslash and the character after it -/
  | escape (c : Char)
  | endOfInput
  deriving Repr, DecidableEq

/-- What was found, as error messages name it. -/
def Found.text : Found → String
  | .token t => t.text
  | .character c => String.ofList ['\'', c, '\'']
  | .escape c => String.ofList ['\'', '\\', c, '\'']
  | .endOfInput => "end of input"

/-- What an expression could go on with. -/
inductive Expected where
  | token | equals | closingQuote | escapeSequence
  | expression | closeParen | closeBracket | stepName | stepIndex | step | number | endOfInput
  deriving Repr, DecidableEq

/-- What was expected, as error messages name it. -/
def Expected.text : Expected → String
  | .token => "valid token"
  | .equals => "'='"
  | .closingQuote => "closing '\"'"
  | .escapeSequence => "escape sequence"
  | .expression => "expression"
  | .closeParen => "')'"
  | .closeBracket => "']'"
  | .stepName => "attribute name after '.'"
  | .stepIndex => "list index"
  | .step => "list index or quoted key"
  | .number => "valid number"
  | .endOfInput => "end of input"

/-- A text that is no expression: the place in characters, what stands there and what should. -/
structure SyntaxError where
  position : Nat
  found : Found
  expected : Expected
  deriving Repr, DecidableEq

/-- The message of a syntax error. -/
def SyntaxError.message (e : SyntaxError) : String :=
  "syntax error at position " ++ Text.natText e.position ++ ": unexpected " ++ e.found.text
    ++ ", expected " ++ e.expected.text

end TableQuery
