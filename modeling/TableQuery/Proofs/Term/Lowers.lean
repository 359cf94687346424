import TableQuery.Proofs.Except
import TableQuery.Term.Lower

/-!
# What lowering does

The relation between an expression and its term, one rule for each form of an expression. Lowering
succeeds only by these rules, so that what holds of all lowered terms is shown by induction on them.
-/

namespace TableQuery.Term

mutual

/-- The term of an expression about a table. -/
inductive Lowers (schema : TableSchema) : Expr → Term → Prop where
  | literal {l} :
    Lowers schema (.literal l) (.value l.value)
  | name {path} :
    Lowers schema (.name path) (.name path)
  | not {e t} :
    Lowers schema e t →
    Lowers schema (.not e) t.negated
  | number {e v w} :
    Lowers schema e (.value v) →
    v.negate = .ok w →
    Lowers schema (.neg e) (.value w)
  | neg {e t} :
    Lowers schema e t →
    (∀ v, t = .value v → v.decimal? = none) →
    Lowers schema (.neg e) (.neg t)
  | and {l r t u} :
    Lowers schema l t →
    Lowers schema r u →
    Lowers schema (.and l r) (.and t u)
  | or {l r t u} :
    Lowers schema l t →
    Lowers schema r u →
    Lowers schema (.or l r) (.or t u)
  | compare {op l r t u} :
    Lowers schema l t →
    Lowers schema r u →
    Lowers schema (.compare op l r) (comparison schema op t u)
  | arith {op l r t u} :
    Lowers schema l t →
    Lowers schema r u →
    Lowers schema (.arith op l r) (.arith op t u)
  | is {path typeName test negated} :
    TypeTest.ofName? typeName = some test →
    Lowers schema (.is (.name path) negated (.literal (.string typeName)))
      (typeTest path test negated)
  | call {function f args ts} :
    Builtin.ofName? function = some f →
    LowersAll schema args ts →
    Lowers schema (.call function args) (.call f ts)

/-- The terms of expressions about a table. -/
inductive LowersAll (schema : TableSchema) : List Expr → List Term → Prop where
  | nil :
    LowersAll schema [] []
  | cons {e t es ts} :
    Lowers schema e t →
    LowersAll schema es ts →
    LowersAll schema (e :: es) (t :: ts)

end

variable {schema : TableSchema}

/-- A comparison, a type test or a negation. -/
def isTest : Term → Bool
  | .compare .. | .is .. | .not _ => true
  | _ => false

/-- A comparison is lowered to a test. -/
lemma isTest_comparison (op : Comparison) (t u : Term) :
    (comparison schema op t u).isTest = true := by
  unfold comparison
  split
  next => rfl
  next => rfl

/-- A negation is lowered to a test. -/
lemma isTest_negated (t : Term) : t.negated.isTest = true := by
  unfold negated
  split
  next => rfl
  next => rfl

/-- A type test is lowered to a test. -/
lemma isTest_typeTest (path : Path) (test : TypeTest) (negated : Bool) :
    (typeTest path test negated).isTest = true := by
  cases test with
  | any => rfl
  | tag tag => cases negated <;> rfl

/-- Only a number is negated to a value. -/
lemma negate_eq_literal {v w : Value} (h : v.negate = .ok w) :
    v.decimal?.isSome ∧ ∃ l : Literal, w = l.value ∧ w.decimal?.isSome := by
  cases v with
  | int n =>
    rw [Value.negate] at h
    split at h
    next m _ =>
      cases h
      exact ⟨rfl, .int m, rfl, rfl⟩
    next =>
      cases h
      exact ⟨rfl, .decimal _, rfl, rfl⟩
  | decimal d =>
    cases h
    exact ⟨rfl, .decimal _, rfl, rfl⟩
  | _ => cases h

/-- Only a path is lowered to a path. -/
lemma Lowers.eq_name {e : Expr} {path : Path} (h : Lowers schema e (.name path)) :
    e = .name path := by
  generalize ht : Term.name path = t at h
  cases h with
  | name => rw [Term.name.inj ht]
  | not _ => exact nomatch ht ▸ isTest_negated _
  | compare _ _ => exact nomatch ht ▸ isTest_comparison _ _ _
  | is _ => exact nomatch ht ▸ isTest_typeTest _ _ _
  | _ => cases ht

/-- A constant is the value of a literal, and only a literal is lowered to one that is no number. -/
lemma Lowers.value {e : Expr} {v : Value} (h : Lowers schema e (.value v)) :
    (∃ l : Literal, v = l.value)
      ∧ (v.decimal? = none → ∃ l : Literal, e = .literal l ∧ v = l.value) := by
  generalize ht : Term.value v = t at h
  cases h with
  | @literal l =>
    cases ht
    exact ⟨⟨l, rfl⟩, fun _ => ⟨l, rfl, rfl⟩⟩
  | number _ hw =>
    cases ht
    obtain ⟨_, l, hl, hv⟩ := negate_eq_literal hw
    refine ⟨⟨l, hl⟩, fun hn => ?_⟩
    rw [hn] at hv
    cases hv
  | not _ => exact nomatch ht ▸ isTest_negated _
  | compare _ _ => exact nomatch ht ▸ isTest_comparison _ _ _
  | is _ => exact nomatch ht ▸ isTest_typeTest _ _ _
  | _ => cases ht

/-- A string constant is written as one. -/
lemma Lowers.eq_string {e : Expr} {s : String} (h : Lowers schema e (.value (.string s))) :
    e = .literal (.string s) := by
  obtain ⟨l, rfl, hl⟩ := h.value.2 rfl
  cases l with
  | string s' => rw [Value.string.inj hl]
  | _ => cases hl

mutual

/-- Lowering succeeds only by the rules. -/
lemma lowers_of_ofExpr : ∀ (e : Expr) {t : Term}, ofExpr schema e = .ok t → Lowers schema e t
  | .literal _, _, h => by
    cases h
    exact .literal
  | .name _, _, h => by
    cases h
    exact .name
  | .not e, _, h => by
    obtain ⟨u, hu, rfl⟩ := map_eq_ok_iff.1 h
    exact .not (lowers_of_ofExpr e hu)
  | .neg e, t, h => by
    rw [ofExpr, bind_eq_ok_iff] at h
    obtain ⟨u, hu, h⟩ := h
    have ih := lowers_of_ofExpr e hu
    unfold negative at h
    split at h
    next v =>
      split at h
      next =>
        obtain ⟨w, hw, rfl⟩ := map_eq_ok_iff.1 h
        exact .number ih hw
      next hv =>
        cases h
        refine .neg ih fun w hw => ?_
        cases hw
        exact Option.not_isSome_iff_eq_none.1 hv
    next hne =>
      cases h
      exact .neg ih fun v hv => absurd hv (hne v)
  | .and l r, _, h => by
    rw [ofExpr, bind_pair_eq_ok_iff] at h
    obtain ⟨t, u, ht, hu, rfl⟩ := h
    exact .and (lowers_of_ofExpr l ht) (lowers_of_ofExpr r hu)
  | .or l r, _, h => by
    rw [ofExpr, bind_pair_eq_ok_iff] at h
    obtain ⟨t, u, ht, hu, rfl⟩ := h
    exact .or (lowers_of_ofExpr l ht) (lowers_of_ofExpr r hu)
  | .compare op l r, _, h => by
    rw [ofExpr, bind_pair_eq_ok_iff] at h
    obtain ⟨t, u, ht, hu, rfl⟩ := h
    exact .compare (lowers_of_ofExpr l ht) (lowers_of_ofExpr r hu)
  | .arith op l r, _, h => by
    rw [ofExpr, bind_pair_eq_ok_iff] at h
    obtain ⟨t, u, ht, hu, rfl⟩ := h
    exact .arith (lowers_of_ofExpr l ht) (lowers_of_ofExpr r hu)
  | .is operand negated type, _, h => by
    rw [ofExpr, bind_eq_ok_iff] at h
    obtain ⟨t, ht, h⟩ := h
    split at h
    next path =>
      obtain ⟨u, hu, h⟩ := bind_eq_ok_iff.1 h
      split at h
      next typeName =>
        have ho := (lowers_of_ofExpr operand ht).eq_name
        have hs := (lowers_of_ofExpr type hu).eq_string
        split at h
        next test htest =>
          cases h
          rw [ho, hs]
          exact .is htest
        next => cases h
      next => cases h
      next => cases h
    next => cases h
  | .call function args, _, h => by
    rw [ofExpr] at h
    split at h
    next f hf =>
      obtain ⟨ts, hts, h⟩ := bind_eq_ok_iff.1 h
      cases h
      exact .call hf (lowersAll_of_ofExprs args hts)
    next => cases h

/-- Arguments are lowered by the rules. -/
lemma lowersAll_of_ofExprs :
    ∀ (es : List Expr) {ts : List Term}, ofExprs schema es = .ok ts → LowersAll schema es ts
  | [], _, h => by
    cases h
    exact .nil
  | e :: es, _, h => by
    rw [ofExprs, bind_pair_eq_ok_iff] at h
    obtain ⟨t, ts, ht, hts, rfl⟩ := h
    exact .cons (lowers_of_ofExpr e ht) (lowersAll_of_ofExprs es hts)

end

end TableQuery.Term
