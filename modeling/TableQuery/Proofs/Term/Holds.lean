import Mathlib.Tactic.Common
import TableQuery.Term.Eval

/-!
# Terms that hold

The logical operators by what their operands hold of an item: `and` and `or` look at the right
operand only if the left one does not decide.
-/

namespace TableQuery

section Absence

/-- A path that does not lead to a value says that it leads nowhere. -/
lemma Stored.get_error {path : Path} {steps : List Step} {v : Stored} {e : QueryError}
    (h : Stored.get path steps v = .error e) : e = .nameNotFound path ∨ e = .notAMap path := by
  induction steps generalizing v with
  | nil => cases h
  | cons step rest ih =>
    cases step with
    | key k =>
      cases v with
      | map fields =>
        rw [get] at h
        cases hk : Fields.get? k fields with
        | some child =>
          rw [hk] at h
          exact ih h
        | none =>
          rw [hk] at h
          cases h
          exact .inl rfl
      | _ =>
        cases h
        exact .inr rfl
    | index i =>
      cases v with
      | list xs =>
        rw [get] at h
        cases hi : xs[i.toNat]? with
        | some child =>
          rw [hi] at h
          exact ih h
        | none =>
          rw [hi] at h
          cases h
          exact .inl rfl
      | _ =>
        cases h
        exact .inl rfl

/-- An error that a path leads nowhere is the absence of a value. -/
lemma tolerateAbsent_absent {path : Path} {e : QueryError}
    (h : e = .nameNotFound path ∨ e = .notAMap path) : tolerateAbsent (.error e) = .ok none := by
  rcases h with rfl | rfl <;> rfl

/-- What a path leads to is absent if it leads nowhere, and else what the stored value is read as. -/
lemma tolerateAbsent_value (item : Item) (path : Path) :
    tolerateAbsent (item.value path)
      = match item.get path with
        | .ok v => (Value.read v).map some
        | .error _ => .ok none := by
  unfold Item.value
  cases hget : item.get path with
  | error e => exact tolerateAbsent_absent (Stored.get_error hget)
  | ok v =>
    change tolerateAbsent (Value.read v) = (Value.read v).map some
    unfold Value.read
    cases Value.ofStored v <;> rfl

end Absence

namespace Term

variable (env : Environment) (item : Item)

/-- The value of a negation. -/
lemma eval_not (t : Term) :
    (Term.not t).eval env item = (do return .bool (!(← t.holds env item))) := by
  rw [eval, holds, bind_assoc]

/-- The value of a conjunction. -/
lemma eval_and (l r : Term) :
    (Term.and l r).eval env item = (do
      if ← l.holds env item then return .bool (← r.holds env item) else return .bool false) := by
  rw [eval, holds, holds, bind_assoc, bind_assoc]

/-- The value of a disjunction. -/
lemma eval_or (l r : Term) :
    (Term.or l r).eval env item = (do
      if ← l.holds env item then return .bool true else return .bool (← r.holds env item)) := by
  rw [eval, holds, holds, bind_assoc, bind_assoc]

/-- A conjunction holds if its operands do, of which the right one counts only if the left one
holds. -/
lemma holds_and (l r : Term) :
    (Term.and l r).holds env item = (do
      if ← l.holds env item then r.holds env item else return false) := by
  rw [holds, eval_and, bind_assoc]
  congr 1
  funext b
  cases b with
  | false => rfl
  | true => cases r.holds env item <;> rfl

/-- A disjunction holds if one of its operands does, of which the right one counts only if the left
one does not hold. -/
lemma holds_or (l r : Term) :
    (Term.or l r).holds env item = (do
      if ← l.holds env item then return true else r.holds env item) := by
  rw [holds, eval_or, bind_assoc]
  congr 1
  funext b
  cases b with
  | true => rfl
  | false => cases r.holds env item <;> rfl

/-- A negation holds if its operand does not. -/
lemma holds_not (t : Term) : (Term.not t).holds env item = (do return !(← t.holds env item)) := by
  rw [holds, eval_not]
  cases t.holds env item <;> rfl

/-- A comparison holds as the results of its operands compare. -/
lemma holds_compare (op : Comparison) (l r : Term) (isKey : Bool) :
    (Term.compare op l r isKey).holds env item
      = compareResults op (l.eval env item) (r.eval env item) := by
  rw [holds, eval]
  cases compareResults op (l.eval env item) (r.eval env item) <;> rfl

/-- A type test holds if the value that may be under its path passes it. -/
lemma holds_is (path : Path) (test : TypeTest) (isNegated : Bool) :
    (Term.is path test isNegated).holds env item
      = (do return passes test isNegated (← tolerateAbsent (item.value path))) := by
  rw [holds, eval]
  cases tolerateAbsent (item.value path) <;> rfl

end Term

end TableQuery
