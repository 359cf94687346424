import TableQuery.Operator
import TableQuery.Text.Digits

/-!
# Conditions of the store

The conditions that the store itself can test. Attribute names and constants stand in them only as
placeholders with a number.
-/

namespace TableQuery.Native

/-- A step of a path in a condition. -/
inductive Step where
  /-- the name of a placeholder -/
  | name (number : Nat)
  | index (i : UInt64)
  deriving Repr, DecidableEq

/-- An operand of a condition. -/
inductive Operand where
  /-- the constant of a placeholder -/
  | value (number : Nat)
  | path (steps : List Step)
  | size (steps : List Step)
  deriving Repr, DecidableEq

/-- A condition. -/
inductive Condition where
  | compare (op : Comparison) (left right : Operand)
  | and (left right : Condition)
  | or (left right : Condition)
  | not (c : Condition)
  | exists (steps : List Step)
  | notExists (steps : List Step)
  /-- the value under a path has the type that a constant names -/
  | type (steps : List Step) (tag : Nat)
  deriving Repr, DecidableEq

/-- The placeholder of a name. -/
def namePlaceholder (number : Nat) : String :=
  "#n" ++ Text.natText number

/-- The placeholder of a constant. -/
def valuePlaceholder (number : Nat) : String :=
  ":v" ++ Text.natText number

/-- The text of a step behind other steps. -/
def Step.text : Step → String
  | .name n => "." ++ namePlaceholder n
  | .index i => "[" ++ Text.natText i.toNat ++ "]"

/-- The text of a path; its first name follows no point. -/
def pathText : List Step → String
  | [] => ""
  | .name n :: rest => namePlaceholder n ++ String.join (rest.map Step.text)
  | .index i :: rest => (Step.index i).text ++ String.join (rest.map Step.text)

/-- The text of an operand. -/
def Operand.text : Operand → String
  | .value n => valuePlaceholder n
  | .path steps => pathText steps
  | .size steps => "size(" ++ pathText steps ++ ")"

/-- The text of a condition. -/
def Condition.text : Condition → String
  | .compare .beginsWith l r => "begins_with(" ++ l.text ++ ", " ++ r.text ++ ")"
  | .compare op l r => l.text ++ " " ++ op.text ++ " " ++ r.text
  | .and l r => "(" ++ l.text ++ ") AND (" ++ r.text ++ ")"
  | .or l r => "(" ++ l.text ++ ") OR (" ++ r.text ++ ")"
  | .not c => "NOT (" ++ c.text ++ ")"
  | .exists steps => "attribute_exists(" ++ pathText steps ++ ")"
  | .notExists steps => "attribute_not_exists(" ++ pathText steps ++ ")"
  | .type steps tag => "attribute_type(" ++ pathText steps ++ ", " ++ valuePlaceholder tag ++ ")"

end TableQuery.Native
