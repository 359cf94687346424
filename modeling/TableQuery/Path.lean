import TableQuery.Text.Digits
import TableQuery.Text.Quoted
import TableQuery.Word

/-!
# Paths

A path leads from an attribute of an item to a value inside it, by keys of maps and indexes of
lists.
-/

namespace TableQuery

/-- One step of a path. -/
inductive Step where
  /-- to an attribute or to the value under a key of a map -/
  | key (name : String)
  /-- to an element of a list -/
  | index (i : UInt64)
  deriving Repr, DecidableEq, Inhabited

/-- The steps of a path in order. -/
structure Path where
  steps : List Step
  deriving Repr, DecidableEq, Inhabited

/-- A step in brackets, as any step can be written. -/
def Step.bracketed : Step → String
  | .key name => "[" ++ Text.quoted name ++ "]"
  | .index i => "[" ++ Text.natText i.toNat ++ "]"

/-- A step behind other steps: an identifier follows a point. -/
def Step.text : Step → String
  | .key name => if Word.isIdentifier name.toList then "." ++ name else (Step.key name).bracketed
  | .index i => (Step.index i).bracketed

/-- The first step of a path: an identifier stands by itself. -/
def Step.rootText : Step → String
  | .key name => if Word.isIdentifier name.toList then name else (Step.key name).bracketed
  | .index i => (Step.index i).bracketed

namespace Path

/-- A path as expressions write it. -/
def text (p : Path) : String :=
  match p.steps with
  | [] => ""
  | first :: rest => first.rootText ++ String.join (rest.map Step.text)

/-- The attribute that a path starts at, or no name if it does not start at one. -/
def root (p : Path) : String :=
  match p.steps with
  | .key name :: _ => name
  | _ => ""

/-- The attribute that is the whole path. -/
def attribute? (p : Path) : Option String :=
  match p.steps with
  | [.key name] => some name
  | _ => none

end Path

end TableQuery
