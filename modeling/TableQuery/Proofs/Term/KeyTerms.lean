import Mathlib.Data.List.Forall2
import TableQuery.Proofs.Term.Conjuncts
import TableQuery.Proofs.Term.Lowers

/-!
# Key terms

A conjunct of a term is the lowered conjunct of its expression. It is tagged as the comparison of a
key with a constant exactly if that is what was written, either way round.
-/

namespace TableQuery

namespace Expr

/-- The expressions that an expression joins by `and`, from left to right. -/
def conjuncts : Expr → List Expr
  | .and l r => l.conjuncts ++ r.conjuncts
  | e => [e]

/-- The value of a constant: a literal, or a number behind minus signs. -/
def constant? : Expr → Option Value
  | .literal l => some l.value
  | .neg e => e.constant?.bind fun v => v.negate.toOption
  | _ => none

/-- An expression compares an attribute with a constant; if the constant is written first, the
operator is the exchanged one. -/
def Compares (e : Expr) (name : String) (op : Comparison) (v : Value) : Prop :=
  ∃ c, c.constant? = some v ∧ (e = .compare op (.name ⟨[.key name]⟩) c
    ∨ ∃ written, written.exchanged? = some op ∧ e = .compare written c (.name ⟨[.key name]⟩))

end Expr

/-- The attribute that is the whole path is its only step. -/
lemma Path.attribute?_eq_some_iff {path : Path} {name : String} :
    path.attribute? = some name ↔ path = ⟨[.key name]⟩ := by
  unfold Path.attribute?
  constructor
  · intro h
    split at h
    next hs =>
      cases h
      cases path
      exact congrArg Path.mk hs
    next => cases h
  · rintro rfl
    rfl

namespace Term

variable {schema : TableSchema}

/-- A test joins nothing. -/
lemma isConjunct_of_isTest {t : Term} (h : t.isTest = true) : t.IsConjunct := by
  rintro l r rfl
  cases h

/-- Only a conjunction is lowered to one. -/
lemma Lowers.isConjunct {e : Expr} {t : Term} (h : Lowers schema e t)
    (he : ∀ l r, e ≠ .and l r) : t.IsConjunct := by
  cases h with
  | and => exact absurd rfl (he _ _)
  | not _ => exact isConjunct_of_isTest (isTest_negated _)
  | compare _ _ => exact isConjunct_of_isTest (isTest_comparison _ _ _)
  | is _ => exact isConjunct_of_isTest (isTest_typeTest _ _ _)
  | _ => exact nofun

/-- The conjuncts of a term are the lowered conjuncts of its expression. -/
lemma ofExpr_conjuncts {e : Expr} {t : Term} (h : ofExpr schema e = .ok t) :
    List.Forall₂ (fun c u => ofExpr schema c = .ok u) e.conjuncts t.conjuncts := by
  induction e using Expr.conjuncts.induct generalizing t with
  | case1 l r ihl ihr =>
    rw [ofExpr, bind_pair_eq_ok_iff] at h
    obtain ⟨u, w, hl, hr, rfl⟩ := h
    rw [Expr.conjuncts, Term.conjuncts]
    exact List.rel_append (ihl hl) (ihr hr)
  | case2 e he =>
    have whole : e.conjuncts = [e] := by
      cases e with
      | and l r => exact absurd rfl (he l r)
      | _ => rfl
    have single := ((lowers_of_ofExpr e h).isConjunct he).conjuncts
    rw [whole, single]
    exact .cons h .nil

/-- The conjuncts of an expression are lowered one by one. -/
lemma lowers_conjuncts {e : Expr} {t : Term} (h : ofExpr schema e = .ok t) :
    List.Forall₂ (Lowers schema) e.conjuncts t.conjuncts :=
  (ofExpr_conjuncts h).imp fun c _ hc => lowers_of_ofExpr c hc

/-- The expression at a place is lowered to the term there. -/
lemma lowered_getElem? {es : List Expr} {ts : List Term} (h : List.Forall₂ (Lowers schema) es ts)
    {i : Nat} {e : Expr} (he : es[i]? = some e) : ∃ t, ts[i]? = some t ∧ Lowers schema e t := by
  obtain ⟨hi, rfl⟩ := List.getElem?_eq_some_iff.1 he
  exact ⟨_, List.getElem?_eq_getElem (h.length_eq ▸ hi), h.get hi _⟩

/-- The term at a place is that of the expression there. -/
lemma written_getElem? {es : List Expr} {ts : List Term} (h : List.Forall₂ (Lowers schema) es ts)
    {i : Nat} {t : Term} (ht : ts[i]? = some t) : ∃ e, es[i]? = some e ∧ Lowers schema e t := by
  obtain ⟨hi, rfl⟩ := List.getElem?_eq_some_iff.1 ht
  exact ⟨_, List.getElem?_eq_getElem (h.length_eq ▸ hi), h.get _ hi⟩

/-- A constant is lowered to its value. -/
lemma Lowers.eq_value {c : Expr} {v : Value} (hc : c.constant? = some v) {t : Term}
    (h : Lowers schema c t) : t = .value v := by
  induction c using Expr.constant?.induct generalizing v t with
  | case1 l =>
    cases hc
    cases h
    rfl
  | case2 e ih =>
    obtain ⟨w, hw, hv⟩ := Option.bind_eq_some_iff.1 hc
    cases hn : w.negate with
    | error _ =>
      rw [hn] at hv
      cases hv
    | ok w' =>
      rw [hn] at hv
      cases hv
      cases h with
      | number he hneg =>
        cases ih hw he
        rw [hn] at hneg
        cases hneg
        rfl
      | neg he hne =>
        have hsome := (negate_eq_literal hn).1
        rw [hne w (ih hw he)] at hsome
        cases hsome
  | case3 e h1 h2 =>
    cases e with
    | literal l => exact absurd rfl (h1 l)
    | neg e => exact absurd rfl (h2 e)
    | _ => cases hc

/-- What is lowered to a constant is one. -/
lemma Lowers.constant? {c : Expr} {v : Value} (h : Lowers schema c (.value v)) :
    c.constant? = some v := by
  generalize ht : Term.value v = t at h
  -- all rules but those of literals and of negated numbers give terms that are no constants
  induction h using Lowers.rec (motive_2 := fun _ _ _ => True) generalizing v with
  | literal =>
    cases ht
    rfl
  | number _ hw ih =>
    cases ht
    rw [Expr.constant?, ih rfl, Option.bind_some, hw]
    rfl
  | not _ _ => exact nomatch ht ▸ isTest_negated _
  | compare _ _ _ _ => exact nomatch ht ▸ isTest_comparison _ _ _
  | is _ => exact nomatch ht ▸ isTest_typeTest _ _ _
  | nil => trivial
  | cons _ _ _ _ => trivial
  | _ => cases ht

/-- A key term compares an attribute with a constant and is tagged as one. -/
lemma keyTerm?_eq_some_iff {t : Term} {name : String} {op : Comparison} {v : Value} :
    t.keyTerm? = some (name, op, v)
      ↔ t = .compare op (.name ⟨[.key name]⟩) (.value v) true := by
  unfold keyTerm?
  constructor
  · intro h
    split at h
    next =>
      obtain ⟨_, hname, e⟩ := Option.map_eq_some_iff.1 h
      cases e
      rw [Path.attribute?_eq_some_iff.1 hname]
    next => cases h
  · rintro rfl
    rfl

/-- A comparison is a key term exactly if it compares a key with a constant, either way round. -/
lemma keyTerm?_comparison {t u : Term} {op op' : Comparison} {name : String} {v : Value} :
    (comparison schema op t u).keyTerm? = some (name, op', v)
      ↔ schema.isKey name = true
        ∧ (t = .name ⟨[.key name]⟩ ∧ u = .value v ∧ op = op'
          ∨ t = .value v ∧ u = .name ⟨[.key name]⟩ ∧ op.exchanged? = some op') := by
  rw [keyTerm?_eq_some_iff]
  unfold comparison
  split
  next w path turned hturned =>
    constructor
    · intro h
      injection h with hop hpath hv hkey
      cases hop
      cases hpath
      cases hv
      exact ⟨hkey, .inr ⟨rfl, rfl, hturned⟩⟩
    · rintro ⟨hkey, ⟨⟨⟩, _⟩ | ⟨⟨⟩, ⟨⟩, hop⟩⟩
      rw [hturned] at hop
      cases hop
      rw [comparesKey, Path.attribute?_eq_some_iff.2 rfl, Option.any_some, hkey]
  next hne =>
    constructor
    · intro h
      injection h with hop ht hu hkey
      cases hop
      cases ht
      cases hu
      exact ⟨hkey, .inl ⟨rfl, rfl, rfl⟩⟩
    · rintro ⟨hkey, ⟨rfl, rfl, rfl⟩ | ⟨rfl, rfl, hop⟩⟩
      · rw [comparesKey, Path.attribute?_eq_some_iff.2 rfl, Option.any_some, hkey]
      · exact absurd hop (hne _ _ _ rfl rfl)

/-- An expression is lowered to a key term exactly if it compares a key with a constant. -/
theorem Lowers.keyTerm?_eq_some_iff {e : Expr} {t : Term} (h : Lowers schema e t) {name : String}
    {op : Comparison} {v : Value} :
    t.keyTerm? = some (name, op, v) ↔ schema.isKey name = true ∧ e.Compares name op v := by
  constructor
  · intro hk
    have ht := Term.keyTerm?_eq_some_iff.1 hk
    cases h with
    | compare hl hr =>
      obtain ⟨hkey, ⟨rfl, rfl, rfl⟩ | ⟨rfl, rfl, hop⟩⟩ := keyTerm?_comparison.1 hk
      · exact ⟨hkey, _, hr.constant?, .inl (by rw [hl.eq_name])⟩
      · exact ⟨hkey, _, hl.constant?, .inr ⟨_, hop, by rw [hr.eq_name]⟩⟩
    | not _ =>
      exfalso
      unfold negated at ht
      split at ht <;> cases ht
    | is _ =>
      exfalso
      unfold typeTest at ht
      split at ht
      · cases ht
      · split at ht <;> cases ht
    | _ => cases ht
  · rintro ⟨hkey, c, hc, rfl | ⟨written, hop, rfl⟩⟩
    · cases h with
      | compare hl hr =>
        cases hl
        rw [hr.eq_value hc]
        exact keyTerm?_comparison.2 ⟨hkey, .inl ⟨rfl, rfl, rfl⟩⟩
    · cases h with
      | compare hl hr =>
        cases hr
        rw [hl.eq_value hc]
        exact keyTerm?_comparison.2 ⟨hkey, .inr ⟨rfl, rfl, hop⟩⟩

end Term

end TableQuery
