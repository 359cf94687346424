import Mathlib.Tactic.Common
import TableQuery.Term.Eval

/-!
# The functions of a term

A term sees the rows of its environment only through the function for marked rows. Without a call of
it, a term has the same outcome in environments that differ in their rows.
-/

namespace TableQuery

/-- Only the function for marked rows looks at the rows of its environment. -/
lemma Builtin.run_rows {f : Builtin} (h : f ≠ .marked) (env : Environment)
    (rows : Option (List (Item × Bool))) (args : List Value) :
    run { env with rows } f args = run env f args := by
  unfold run
  split
  case h_4 => exact absurd rfl h
  all_goals rfl

/-- Only `marked` looks at the rows. -/
lemma Builtin.apply_rows {f : Builtin} (h : f ≠ .marked) (env : Environment)
    (rows : Option (List (Item × Bool))) (args : List Value) :
    apply { env with rows } f args = apply env f args := by
  unfold apply
  rw [run_rows h]

namespace Term

mutual

/-- The functions that a term calls, at any depth. -/
def builtins : Term → List Builtin
  | .value _ | .name _ | .is .. => []
  | .compare _ l r _ | .and l r | .or l r | .arith _ l r => l.builtins ++ r.builtins
  | .not t | .neg t => t.builtins
  | .call f args => f :: builtinsAll args

/-- The functions that terms call. -/
def builtinsAll : List Term → List Builtin
  | [] => []
  | t :: rest => t.builtins ++ builtinsAll rest

end

variable {env : Environment} {rows : Option (List (Item × Bool))} {item : Item}

mutual

/-- A term that does not ask for marked rows has the same value whatever the rows are. -/
lemma eval_rows : ∀ t : Term, .marked ∉ t.builtins →
    t.eval { env with rows } item = t.eval env item
  | .value _, _ | .name _, _ | .is .., _ => rfl
  | .compare _ l r _, h | .and l r, h | .or l r, h | .arith _ l r, h => by
    rw [builtins, List.mem_append, not_or] at h
    rw [eval, eval, eval_rows l h.1, eval_rows r h.2]
  | .not t, h | .neg t, h => by
    rw [builtins] at h
    rw [eval, eval, eval_rows t h]
  | .call f args, h => by
    rw [builtins, List.mem_cons, not_or] at h
    rw [eval, eval, evalAll_rows args h.2]
    simp only [Builtin.apply_rows (Ne.symm h.1)]

/-- Arguments that do not ask for marked rows have the same values whatever the rows are. -/
lemma evalAll_rows : ∀ ts : List Term, .marked ∉ builtinsAll ts →
    evalAll { env with rows } item ts = evalAll env item ts
  | [], _ => rfl
  | t :: rest, h => by
    rw [builtinsAll, List.mem_append, not_or] at h
    rw [evalAll, evalAll, eval_rows t h.1, evalAll_rows rest h.2]

end

/-- A term that does not ask for marked rows is true of the same items whatever the rows are. -/
lemma holds_rows {t : Term} (h : .marked ∉ t.builtins) :
    t.holds { env with rows } item = t.holds env item := by
  rw [holds, holds, eval_rows t h]

end Term

end TableQuery
