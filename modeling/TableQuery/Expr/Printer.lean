import TableQuery.Decimal.Text
import TableQuery.Expr.Basic

/-!
# The text of an expression

An operand stands in parentheses exactly when it binds less tightly than its place requires. A
decimal that would read as a machine integer is written with an exponent.
-/

namespace TableQuery

/-- The text of a decimal literal, told from that of an integer by a point or an exponent. -/
def Decimal.literalText (d : Decimal) : String :=
  let text := d.text
  if text.toList.any (fun c => c == '.' || c == 'e' || c == 'E')
      || (Text.int64OfDigits? text.toList).isNone then text
  else Text.intText d.coefficient ++ "E" ++ Text.intText (-d.scale.toInt)

/-- The text of a literal. -/
def Literal.text : Literal → String
  | .string s => Text.quoted s
  | .int n => Text.intText n.toInt
  | .decimal d => d.literalText
  | .bool b => if b then "true" else "false"
  | .null => "null"

namespace Expr

/-- How tightly the outermost operator of an expression binds. -/
def tightness : Expr → Nat
  | .or .. => 1
  | .and .. => 2
  | .not _ => 3
  | .compare .. | .is .. => 4
  | .arith .. => 5
  | .neg _ => 6
  | .literal _ | .name _ | .call .. => 7

/-- A text in parentheses, if it needs them. -/
def grouped (needed : Bool) (text : String) : String :=
  if needed then "(" ++ text ++ ")" else text

mutual

/-- The text of an expression. -/
def text : Expr → String
  | .literal l => l.text
  | .name path => path.text
  | .or a b => grouped (a.tightness < 1) a.text ++ " or " ++ grouped (b.tightness < 2) b.text
  | .and a b => grouped (a.tightness < 2) a.text ++ " and " ++ grouped (b.tightness < 3) b.text
  | .not a => "not " ++ grouped (a.tightness < 3) a.text
  | .compare op a b =>
    grouped (a.tightness < 5) a.text ++ " " ++ op.text ++ " " ++ grouped (b.tightness < 5) b.text
  | .is a negated b =>
    grouped (a.tightness < 5) a.text ++ (if negated then " is not " else " is ")
      ++ grouped (b.tightness < 5) b.text
  | .arith op a b =>
    grouped (a.tightness < 5) a.text ++ " " ++ op.text ++ " " ++ grouped (b.tightness < 6) b.text
  | .neg a => "-" ++ grouped (a.tightness < 6) a.text
  | .call f args => f ++ "(" ++ argsText args ++ ")"

/-- The texts of the arguments of a call, with commas between them. -/
def argsText : List Expr → String
  | [] => ""
  | [a] => a.text
  | a :: b :: rest => a.text ++ ", " ++ argsText (b :: rest)

end

end Expr

end TableQuery
