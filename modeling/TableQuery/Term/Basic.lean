import TableQuery.Builtin.Basic
import TableQuery.Expr.Printer
import TableQuery.Value.Basic

/-!
# Terms

An expression made ready for evaluation: functions are known, type tests have their types, and a
comparison of an attribute with a constant has the attribute on its left.
-/

namespace TableQuery

/-- What a type test asks for. -/
inductive TypeTest where
  /-- that there is a value -/
  | any
  | tag (t : TypeTag)
  deriving Repr, DecidableEq, Inhabited

namespace TypeTest

/-- The name of what is asked for. -/
def text : TypeTest → String
  | .any => "ANY"
  | .tag t => t.text

/-- The test of a name in any letter case. -/
def ofName? (name : String) : Option TypeTest :=
  let upper := name.map Char.toUpper
  if upper = "ANY" then some .any else (TypeTag.ofText? upper).map .tag

end TypeTest

/-- A term. -/
inductive Term where
  | value (v : Value)
  | name (path : Path)
  /-- a comparison; `isKey` tells that it compares a key attribute with a constant -/
  | compare (op : Comparison) (left right : Term) (isKey : Bool)
  | and (left right : Term)
  | or (left right : Term)
  | not (t : Term)
  | is (path : Path) (test : TypeTest) (negated : Bool)
  | arith (op : Arith) (left right : Term)
  | neg (t : Term)
  | call (f : Builtin) (args : List Term)
  deriving Repr, Inhabited

namespace Term

mutual

/-- The value of the term is the same for every row. -/
def isConstant : Term → Bool
  | .value _ => true
  | .name _ | .is .. => false
  | .compare _ l r _ | .and l r | .or l r | .arith _ l r => l.isConstant && r.isConstant
  | .not t | .neg t => t.isConstant
  | .call _ args => areConstant args

/-- The values of all terms are the same for every row. -/
def areConstant : List Term → Bool
  | [] => true
  | t :: rest => t.isConstant && areConstant rest

end

/-- The terms that a term joins by `and`, from left to right. -/
def conjuncts : Term → List Term
  | .and l r => l.conjuncts ++ r.conjuncts
  | t => [t]

/-- The terms joined by `and`, from the left. -/
def conjunction? : List Term → Option Term
  | [] => none
  | t :: rest => some (rest.foldl .and t)

/-- The key attribute and the constant of a comparison that is tagged as one of a key. -/
def keyTerm? : Term → Option (String × Comparison × Value)
  | .compare op (.name path) (.value v) true => path.attribute?.map fun name => (name, op, v)
  | _ => none

/-- A term that needs no parentheses as an operand. -/
def isLeaf : Term → Bool
  | .value _ | .name _ | .call .. => true
  | _ => false

/-- A constant as expressions write it, if they can. -/
def valueText : Value → String
  | .string s => Text.quoted s
  | v => v.text

mutual

/-- The text of a term; every operand but a leaf is in parentheses. -/
def text : Term → String
  | .value v => valueText v
  | .name path => path.text
  | .compare op l r _ =>
    Expr.grouped (!l.isLeaf) l.text ++ " " ++ op.text ++ " " ++ Expr.grouped (!r.isLeaf) r.text
  | .and l r => Expr.grouped (!l.isLeaf) l.text ++ " and " ++ Expr.grouped (!r.isLeaf) r.text
  | .or l r => Expr.grouped (!l.isLeaf) l.text ++ " or " ++ Expr.grouped (!r.isLeaf) r.text
  | .not t => "not " ++ Expr.grouped (!t.isLeaf) t.text
  | .is path test negated =>
    path.text ++ " is " ++ (if negated then "not " else "") ++ "\"" ++ test.text ++ "\""
  | .arith op l r =>
    Expr.grouped (!l.isLeaf) l.text ++ " " ++ op.text ++ " " ++ Expr.grouped (!r.isLeaf) r.text
  | .neg t => "-" ++ Expr.grouped (!t.isLeaf) t.text
  | .call f args => f.name ++ "(" ++ argsText args ++ ")"

/-- The texts of arguments, with commas between them. -/
def argsText : List Term → String
  | [] => ""
  | [t] => t.text
  | t :: u :: rest => t.text ++ ", " ++ argsText (u :: rest)

end

end Term

end TableQuery
