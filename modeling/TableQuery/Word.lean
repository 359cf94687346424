/-!
# Words

The words of an expression: letters, digits and underscores, with no digit in front. Seven of them
are keywords in any letter case, and the others are identifiers.
-/

namespace TableQuery

/-- The words that name no attribute. -/
inductive Keyword where
  | and | or | not | is | true | false | null
  deriving Repr, DecidableEq

namespace Keyword

/-- Every keyword. -/
def all : List Keyword :=
  [.and, .or, .not, .is, .true, .false, .null]

/-- The keyword in small letters. -/
def text : Keyword → String
  | .and => "and"
  | .or => "or"
  | .not => "not"
  | .is => "is"
  | .true => "true"
  | .false => "false"
  | .null => "null"

/-- The keyword that a word spells in any letter case. -/
def ofWord? (word : List Char) : Option Keyword :=
  all.find? fun k => k.text.toList == word.map Char.toLower

end Keyword

namespace Word

/-- A character that begins a word. -/
def isStart (c : Char) : Bool :=
  c.isAlpha || c == '_'

/-- A character inside a word. -/
def isPart (c : Char) : Bool :=
  c.isAlphanum || c == '_'

/-- A word that is no keyword. -/
def isIdentifier (word : List Char) : Bool :=
  word.head?.any isStart && word.all isPart && (Keyword.ofWord? word).isNone

end Word

end TableQuery
