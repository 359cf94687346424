import TableQuery.Proofs.Expr.RoundTrip
import TableQuery.Proofs.Term.Lowers
import TableQuery.Proofs.Value.Order

/-!
# Normal terms

Lowering turns a comparison around, takes a negation into a test and a sign into a number. What it
gives are normal terms: ones that these steps leave as they are. And the steps treat terms alike
that differ only in the way in which their numbers are kept.
-/

namespace TableQuery.Term

mutual

/-- Two terms are identical but for numeric constants, which are compared by value. -/
def same : Term → Term → Bool
  | .value v, .value w => v.same w
  | .name p, .name q => p == q
  | .compare op l r isKey, .compare op' l' r' isKey' =>
    op == op' && isKey == isKey' && same l l' && same r r'
  | .and l r, .and l' r' => same l l' && same r r'
  | .or l r, .or l' r' => same l l' && same r r'
  | .not t, .not u => same t u
  | .is p test isNegated, .is q test' isNegated' =>
    p == q && test == test' && isNegated == isNegated'
  | .arith op l r, .arith op' l' r' => op == op' && same l l' && same r r'
  | .neg t, .neg u => same t u
  | .call f ts, .call g us => f == g && sameAll ts us
  | _, _ => false

/-- Two lists of pairwise same terms. -/
def sameAll : List Term → List Term → Bool
  | [], [] => true
  | t :: ts, u :: us => same t u && sameAll ts us
  | _, _ => false

end

variable {schema : TableSchema}

section Congruence

variable {t t' u u' : Term}

/-- Comparisons of operands that are the same are the same. -/
lemma same_compare (op : Comparison) (isKey : Bool) (ht : t.same t' = true)
    (hu : u.same u' = true) :
    (compare op t u isKey).same (compare op t' u' isKey) = true := by
  rw [same, beq_self_eq_true, beq_self_eq_true, ht, hu]
  rfl

/-- Comparisons of the same terms are turned around alike. -/
lemma same_comparison (op : Comparison) (ht : t.same t' = true) (hu : u.same u' = true) :
    (comparison schema op t u).same (comparison schema op t' u') = true := by
  have kept (isKey : Bool) := same_compare op isKey ht hu
  unfold same at ht
  split at ht
  case h_1 v w =>
    -- a constant changes places with an attribute only
    unfold same at hu
    split at hu
    case h_2 p q =>
      cases beq_iff_eq.1 hu
      cases hturned : op.exchanged? with
      | none =>
        unfold comparison
        rw [hturned]
        exact kept false
      | some turned =>
        unfold comparison
        rw [hturned]
        exact same_compare turned _ (beq_self_eq_true p) ht
    case h_11 => cases hu
    all_goals exact kept false
  case h_2 p q =>
    -- an attribute is compared as a key with a constant only
    cases beq_iff_eq.1 ht
    unfold same at hu
    split at hu
    case h_11 => cases hu
    all_goals exact kept _
  case h_11 => cases ht
  all_goals exact kept false

/-- The same tests take a negation into them. -/
lemma same_negated (h : t.same u = true) : t.negated.same u.negated = true := by
  have kept : (Term.not t).same (.not u) = true := h
  unfold same at h
  split at h
  case h_7 p test isNegated q test' isNegated' =>
    simp only [Bool.and_eq_true, beq_iff_eq] at h
    obtain ⟨⟨rfl, rfl⟩, rfl⟩ := h
    cases test with
    | any => simp only [negated, same, beq_self_eq_true, Bool.and_self]
    | tag _ => exact kept
  case h_11 => cases h
  all_goals exact kept

/-- The same terms take no sign into them. -/
lemma negative_of_same (h : t.same u = true) (ht : t.negative = .ok (.neg t)) :
    u.negative = .ok (.neg u) := by
  unfold same at h
  split at h
  case h_1 v w =>
    unfold negative at ht ⊢
    dsimp only at ht ⊢
    rw [← Value.isSome_decimal?_of_same h]
    split at ht
    next =>
      obtain ⟨_, _, hne⟩ := map_eq_ok_iff.1 ht
      cases hne
    next hv => rw [if_neg hv]
  case h_11 => cases h
  all_goals rfl

end Congruence

mutual

/-- A term that lowering leaves as it is: its constants are those of literals and its paths can be
written, nothing in it can be turned around, and no negation or sign can be taken in. -/
def Normal (schema : TableSchema) : Term → Prop
  | .value v => ∃ l : Literal, v = l.value
  | .name path => path.WellFormed
  | .compare op l r isKey =>
    comparison schema op l r = .compare op l r isKey ∧ l.Normal schema ∧ r.Normal schema
  | .and l r | .or l r | .arith _ l r => l.Normal schema ∧ r.Normal schema
  | .not t => t.negated = .not t ∧ t.Normal schema
  | .is path test isNegated =>
    typeTest path test isNegated = .is path test isNegated ∧ path.WellFormed
  | .neg t => t.negative = .ok (.neg t) ∧ t.Normal schema
  | .call _ args => AllNormal schema args

/-- All terms are normal. -/
def AllNormal (schema : TableSchema) : List Term → Prop
  | [] => True
  | t :: rest => t.Normal schema ∧ AllNormal schema rest

end

/-- A comparison of normal terms is normal. -/
lemma normal_comparison (op : Comparison) {t u : Term} (ht : t.Normal schema)
    (hu : u.Normal schema) : (comparison schema op t u).Normal schema := by
  unfold comparison
  split
  next => exact ⟨rfl, hu, ht⟩
  next hne =>
    refine ⟨?_, ht, hu⟩
    unfold comparison
    split
    next hturned => exact (hne _ _ _ rfl rfl hturned).elim
    next => rfl

/-- The negation of a normal term is normal. -/
lemma normal_negated {t : Term} (h : t.Normal schema) : t.negated.Normal schema := by
  unfold negated
  split
  next path isNegated => exact ⟨rfl, h.2⟩
  next hne =>
    refine ⟨?_, h⟩
    unfold negated
    split
    next => exact (hne _ _ rfl).elim
    next => rfl

/-- A test for a type is normal if its path is well-formed. -/
lemma normal_typeTest {path : Path} (h : path.WellFormed) (test : TypeTest) (isNegated : Bool) :
    (typeTest path test isNegated).Normal schema := by
  cases test with
  | any => exact ⟨rfl, h⟩
  | tag t =>
    cases isNegated with
    | false => exact ⟨rfl, h⟩
    | true => exact ⟨rfl, rfl, h⟩

/-- What is no number is negated as a term. -/
lemma negative_eq_neg {t : Term} (h : ∀ v, t = .value v → v.decimal? = none) :
    t.negative = .ok (.neg t) := by
  unfold negative
  split
  next v => rw [h v rfl, Option.isSome_none, if_neg Bool.false_ne_true]
  next => rfl

/-- Lowering gives normal terms. -/
lemma Lowers.normal {e : Expr} {t : Term} (h : Lowers schema e t) (he : e.WellFormed) :
    t.Normal schema := by
  induction h using Lowers.rec
    (motive_2 := fun es ts _ => Expr.AllWellFormed es → AllNormal schema ts) with
  | @literal l => exact ⟨l, rfl⟩
  | name => exact he
  | not _ ih => exact normal_negated (ih he)
  | number _ hw _ =>
    obtain ⟨-, l, hl, -⟩ := negate_eq_literal hw
    exact ⟨l, hl⟩
  | neg _ hv ih => exact ⟨negative_eq_neg hv, ih he⟩
  | and _ _ ihl ihr | or _ _ ihl ihr | arith _ _ ihl ihr => exact ⟨ihl he.1, ihr he.2⟩
  | compare _ _ ihl ihr => exact normal_comparison _ (ihl he.1) (ihr he.2)
  | is _ => exact normal_typeTest he.1 _ _
  | call _ _ ih => exact ih he.2
  | nil _ => trivial
  | cons _ _ ih ihs he => exact ⟨ih he.1, ihs he.2⟩

end TableQuery.Term
