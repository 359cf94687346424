import Mathlib.Tactic.Common
import TableQuery.Expr.Parser

/-!
# The grammar of expressions

The token sequences that are expressions, with the expression that each of them is. The levels are
those of `Expr.tightness`: an expression of a level may stand where a looser one is asked for.
-/

namespace TableQuery.Grammar

/-- The tokens of a step behind other steps. -/
inductive IsStep : List Token → Step → Prop where
  | name {name} :
    IsStep [.dot, .identifier name] (.key name)
  | key {text} :
    IsStep [.openBracket, .string text, .closeBracket] (.key text)
  | index {numeral i} :
    Text.uint64OfDigits? numeral.toList = some i →
    IsStep [.openBracket, .number numeral, .closeBracket] (.index i)

/-- The tokens of the steps behind the first one of a path. -/
inductive AreSteps : List Token → List Step → Prop where
  | nil :
    AreSteps [] []
  | cons {ts us step steps} :
    IsStep ts step →
    AreSteps us steps →
    AreSteps (ts ++ us) (step :: steps)

/-- The tokens of steps do not begin with a parenthesis. -/
lemma AreSteps.begins {ts : List Token} {steps : List Step} (h : AreSteps ts steps) :
    ts = [] ∨ ∃ t rest, ts = t :: rest ∧ t ≠ .openParen := by
  cases h with
  | nil => exact .inl rfl
  | cons hstep _ =>
    right
    cases hstep <;> exact ⟨_, _, rfl, nofun⟩

mutual

/-- The tokens of an expression of a level. -/
inductive Derives : Nat → List Token → Expr → Prop where
  | tighter {k ts e} :
    Derives (k + 1) ts e →
    Derives k ts e
  | or {ts us a b} :
    Derives 1 ts a →
    Derives 2 us b →
    Derives 1 (ts ++ .keyword .or :: us) (.or a b)
  | and {ts us a b} :
    Derives 2 ts a →
    Derives 3 us b →
    Derives 2 (ts ++ .keyword .and :: us) (.and a b)
  | not {ts a} :
    Derives 3 ts a →
    Derives 3 (.keyword .not :: ts) (.not a)
  | compare {op ts us a b} :
    Derives 5 ts a →
    Derives 5 us b →
    Derives 4 (ts ++ .compare op :: us) (.compare op a b)
  | is {ts us a b} :
    Derives 5 ts a →
    Derives 5 us b →
    Derives 4 (ts ++ .keyword .is :: us) (.is a false b)
  | isNot {ts us a b} :
    Derives 5 ts a →
    Derives 5 us b →
    Derives 4 (ts ++ .keyword .is :: .keyword .not :: us) (.is a true b)
  | arith {op ts us a b} :
    Derives 5 ts a →
    Derives 6 us b →
    Derives 5 (ts ++ .arith op :: us) (.arith op a b)
  | neg {ts a} :
    Derives 6 ts a →
    Derives 6 (.arith .sub :: ts) (.neg a)
  | group {ts e} :
    Derives 1 ts e →
    Derives 7 (.openParen :: ts ++ [.closeParen]) e
  | string {text} :
    Derives 7 [.string text] (.literal (.string text))
  | number {numeral l} :
    Literal.ofNumeral? numeral = some l →
    Derives 7 [.number numeral] (.literal l)
  | true :
    Derives 7 [.keyword .true] (.literal (.bool true))
  | false :
    Derives 7 [.keyword .false] (.literal (.bool false))
  | null :
    Derives 7 [.keyword .null] (.literal .null)
  | name {name ts steps} :
    AreSteps ts steps →
    Derives 7 (.identifier name :: ts) (.name ⟨.key name :: steps⟩)
  | constant {function} :
    Derives 7 [.identifier function, .openParen, .closeParen] (.call function [])
  | call {function ts args} :
    DeriveArgs ts args →
    Derives 7 (.identifier function :: .openParen :: ts ++ [.closeParen]) (.call function args)

/-- The tokens of one or more arguments. -/
inductive DeriveArgs : List Token → List Expr → Prop where
  | last {ts a} :
    Derives 1 ts a →
    DeriveArgs ts [a]
  | more {ts us a args} :
    Derives 1 ts a →
    DeriveArgs us args →
    DeriveArgs (ts ++ .comma :: us) (a :: args)

end

/-- An expression of a level is one of every looser level. -/
lemma Derives.loosen {k j : Nat} {ts : List Token} {e : Expr} (h : Derives k ts e) (hj : j ≤ k) :
    Derives j ts e := by
  induction hj with
  | refl => exact h
  | step _ ih => exact ih h.tighter

/-- Tokens that an expression begins with. -/
def Viable (ts : List Token) : Prop :=
  ∃ us e, Derives 1 (ts ++ us) e

/-- What begins with more of the tokens begins with these. -/
lemma Viable.of_append {ts us : List Token} (h : Viable (ts ++ us)) : Viable ts := by
  obtain ⟨vs, e, h⟩ := h
  rw [List.append_assoc] at h
  exact ⟨us ++ vs, e, h⟩

/-- The tokens of an expression begin with one that closes nothing, that is no `not` from the level
of comparisons on and no minus sign at the level of primaries. -/
def Begins (k : Nat) (ts : List Token) : Prop :=
  ∃ t rest, ts = t :: rest ∧ t ≠ .closeParen ∧ (4 ≤ k → t ≠ .keyword .not)
    ∧ (7 ≤ k → t ≠ .arith .sub)

/-- More tokens behind an expression do not change how it begins. -/
lemma Begins.append {k j : Nat} {ts : List Token} (h : Begins k ts) (hj : j ≤ k)
    (us : List Token) : Begins j (ts ++ us) := by
  obtain ⟨t, rest, rfl, hclose, hnot, hsub⟩ := h
  exact ⟨t, rest ++ us, rfl, hclose, fun h => hnot (Nat.le_trans h hj),
    fun h => hsub (Nat.le_trans h hj)⟩

/-- The tokens of an expression begin with one that can begin it. -/
lemma Derives.begins {k : Nat} {ts : List Token} {e : Expr} (h : Derives k ts e) :
    Begins k ts := by
  induction h using Derives.rec (motive_2 := fun ts _ _ => Begins 1 ts) with
  | @tighter k ts e _ ih =>
    have := ih.append (Nat.le_succ k) []
    rwa [List.append_nil] at this
  | or _ _ ih _ | and _ _ ih _ | arith _ _ ih _ => exact ih.append (Nat.le_refl _) _
  | compare _ _ ih _ | is _ _ ih _ | isNot _ _ ih _ => exact ih.append (by decide) _
  | more _ _ ih _ => exact ih.append (Nat.le_refl _) _
  | last _ ih => exact ih
  | not _ _ => exact ⟨_, _, rfl, nofun, by decide, fun _ => nofun⟩
  | neg _ _ => exact ⟨_, _, rfl, nofun, fun _ => nofun, by decide⟩
  | _ => exact ⟨_, _, rfl, nofun, fun _ => nofun, fun _ => nofun⟩

/-- The tokens of arguments begin as those of an expression. -/
lemma DeriveArgs.begins {ts : List Token} {args : List Expr} (h : DeriveArgs ts args) :
    Begins 1 ts := by
  cases h with
  | last h => exact h.begins
  | more h _ => exact h.begins.append (Nat.le_refl _) _

end TableQuery.Grammar
