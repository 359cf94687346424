import Mathlib.Data.List.Forall2
import TableQuery.Proofs.Native.Builder
import TableQuery.Proofs.Term.Attributes

/-!
# Constants are folded

A condition of the store holds a constant in place of every operand that is the same for all items.
It is evaluated once, for an item without attributes, and what is stored is the value that the
operand has for each item in the same environment.
-/

namespace TableQuery

/-- The operands of the comparisons in a term, from left to right. -/
def Term.operands : Term → List Term
  | .compare _ l r _ => [l, r]
  | .and l r | .or l r => l.operands ++ r.operands
  | .not t => t.operands
  | _ => []

namespace Native

/-- The operands of the comparisons in a condition, from left to right. -/
def Condition.operands : Condition → List Operand
  | .compare _ l r => [l, r]
  | .and l r | .or l r => l.operands ++ r.operands
  | .not c => c.operands
  | _ => []

/-- An operand of a condition stands for a term, by what placeholders stand for: only a constant
becomes one, with the stored form of the value that it has for every item, and only paths and sizes
are left to the store. -/
inductive StandsFor (env : Environment) (p : Placeholders) : Term → Operand → Prop where
  | constant {t n v} :
    t.isConstant = true →
    (∀ item, t.eval env item = .ok v) →
    Fields.get? (valuePlaceholder n) p.valueFields = some v.toStored →
    StandsFor env p t (.value n)
  | path {path steps} :
    p.pathSteps? steps = some path.steps →
    StandsFor env p (.name path) (.path steps)
  | size {path steps} :
    p.pathSteps? steps = some path.steps →
    StandsFor env p (.call .size [.name path]) (.size steps)

open Build

variable {env : Environment}

/-- An operand that is built stands for its term. -/
lemma yields_standsFor (t : Term) : Yields (operand env t) fun q o => StandsFor env q t o := by
  unfold operand
  split
  next hconstant =>
    refine yields_lift.bind fun v => (yields_value v.toStored).bind fun n => yields_pure ?_
    intro q hn hv
    have hvalue : ∀ item, t.eval env item = .ok v := by
      intro item
      rw [← hv, Term.eval_eq_of_isConstant hconstant]
    exact .constant hconstant hvalue ((Placeholders.get?_valueFields q n).trans hn)
  next =>
    split
    next path _ =>
      exact (yields_steps path.steps).bind fun steps => yields_pure fun q hsteps => .path hsteps
    next path _ =>
      exact (yields_steps path.steps).bind fun steps => yields_pure fun q hsteps => .size hsteps
    next => exact yields_throw _

/-- The operands of a condition that is built stand for those of its term, place by place. -/
lemma yields_operands : ∀ t : Term, Yields (condition env t) fun q c =>
    List.Forall₂ (StandsFor env q) t.operands c.operands
  | .compare op l r _ => by
    refine (yields_standsFor l).bind fun left => (yields_standsFor r).bind fun right =>
      yields_pure ?_
    exact fun q hr hl => .cons hl (.cons hr .nil)
  | .and l r | .or l r => by
    refine (yields_operands l).bind fun left => (yields_operands r).bind fun right =>
      yields_pure ?_
    exact fun q hr hl => List.rel_append hl hr
  | .not t => (yields_operands t).bind fun c => yields_pure fun q h => h
  | .is path test isNegated => by
    refine (yields_steps path.steps).bind fun steps => ?_
    cases test with
    | any => cases isNegated <;> exact yields_pure fun _ _ => .nil
    | tag t => exact (yields_value _).bind fun n => yields_pure fun _ _ _ => .nil
  | .value _ | .name _ | .arith .. | .neg _ | .call .. => yields_throw _

/-- A constant has the same value, or the same error, for any two items. So wherever a condition is
built, each of its operands that was folded is stored as the value that it has for every item in the
same environment, and stays so. -/
theorem folding_sound (env : Environment) :
    (∀ t : Term, t.isConstant = true → ∀ item item' : Item, t.eval env item = t.eval env item')
      ∧ ∀ t p c p', condition env t p = .ok c p' → ∀ q, p' ≤ q →
        List.Forall₂ (StandsFor env q) t.operands c.operands :=
  ⟨fun _ => Term.eval_eq_of_isConstant, fun t p c p' h => (yields_operands t p c p' h).2⟩

/-- A sum with the time in it, which is folded behind a constant that has a placeholder already. -/
theorem folding_sound_now :
    let env : Environment := { clock := some 41 }
    let sum : Term := .arith .add (.call .now []) (.value (.int 1))
    let t : Term := .compare .lt (.call .size [.name ⟨[.key "a"]⟩]) sum false
    let p : Placeholders := ⟨["b"], [.null true]⟩
    ∃ c p' v, condition env t p = .ok c p' ∧ c.operands = [.size [.name 1], .value 1]
      ∧ sum.eval env [] = sum.eval env [("a", .string "k")]
      ∧ Fields.get? ":v1" p'.valueFields = some v.toStored ∧ v.toStored = .number "42"
      ∧ ∀ item, sum.eval env item = .ok v := by
  intro env sum t p
  obtain ⟨hsame, hfolded⟩ := folding_sound env
  have h : (match condition env t p with
      | .ok c p' => decide (c.operands = [.size [.name 1], .value 1]
        ∧ Fields.get? ":v1" p'.valueFields = some (.number "42"))
      | .error .. => false) = true := by
    decide +kernel
  cases hbuilt : condition env t p with
  | error e p' =>
    rw [hbuilt] at h
    cases h
  | ok c p' =>
    rw [hbuilt] at h
    obtain ⟨hoperands, hvalue⟩ := of_decide_eq_true h
    have hfolds := hfolded t p c p' hbuilt p' (Placeholders.le_refl p')
    rw [hoperands] at hfolds
    have hsum := (List.forall₂_cons.1 (List.forall₂_cons.1 hfolds).2).1
    generalize hu : sum = u at hsum
    cases hsum with
    | @constant _ _ v hconstant heval hstored =>
      subst hu
      exact ⟨c, p', v, rfl, hoperands, hsame sum hconstant _ _, hstored,
        Option.some.inj (hstored.symm.trans hvalue), heval⟩

end Native

end TableQuery
