import TableQuery.Proofs.Decimal.Order
import TableQuery.Value.Order

/-!
# Equality and order of values

Numbers are the same and are ordered as the rational numbers that they stand for. Sameness of values
is symmetric and their order is turned around with its operands, so a comparison with its operands
exchanged is the exchanged comparison.
-/

namespace TableQuery

/-- Decimals of one number are the same either way round. -/
lemma Decimal.same_comm (a b : Decimal) : a.same b = b.same a := by
  rw [Bool.eq_iff_iff, same_iff, same_iff, eq_comm]

namespace Value

/-- The number that an integer or a decimal stands for. -/
inductive Denotes : Value → ℚ → Prop
  | int (n : Int64) : Denotes (.int n) n.toInt
  | decimal (d : Decimal) : Denotes (.decimal d) d.value

/-- A value denotes a number if it is taken for a decimal with this value. -/
lemma denotes_iff {v : Value} {q : ℚ} :
    v.Denotes q ↔ ∃ x, v.decimal? = some x ∧ x.value = q := by
  constructor
  · intro h
    cases h with
    | int n => exact ⟨_, rfl, Decimal.value_ofInt _⟩
    | decimal d => exact ⟨_, rfl, rfl⟩
  · rintro ⟨x, hv, rfl⟩
    cases v with
    | int n =>
      cases hv
      rw [Decimal.value_ofInt]
      exact .int n
    | decimal d =>
      obtain rfl := Option.some.inj hv
      exact .decimal d
    | _ => cases hv

/-- A value is one number at most. -/
lemma Denotes.unique {v : Value} {q r : ℚ} (hq : v.Denotes q) (hr : v.Denotes r) : q = r := by
  cases hq <;> cases hr <;> rfl

/-- The order of two values is that of two numbers or that of two strings. -/
lemma order?_eq_some_iff {a b : Value} {o : Ordering} :
    a.order? b = some o ↔ (∃ x y, a.Denotes x ∧ b.Denotes y ∧ compare x y = o)
      ∨ ∃ s t, a = .string s ∧ b = .string t ∧ compare s t = o := by
  constructor
  · intro h
    unfold order? at h
    split at h
    next x y hx hy =>
      rw [Decimal.compare_eq, Option.some_inj] at h
      exact .inl ⟨_, _, denotes_iff.2 ⟨x, hx, rfl⟩, denotes_iff.2 ⟨y, hy, rfl⟩, h⟩
    next =>
      cases a <;> cases b <;> cases h
      exact .inr ⟨_, _, rfl, rfl, rfl⟩
  · rintro (⟨x, y, ha, hb, rfl⟩ | ⟨s, t, rfl, rfl, rfl⟩)
    · obtain ⟨x, hx, rfl⟩ := denotes_iff.1 ha
      obtain ⟨y, hy, rfl⟩ := denotes_iff.1 hb
      unfold order?
      rw [hx, hy, ← Decimal.compare_eq]
    · rfl

mutual

/-- Sameness is symmetric. -/
lemma same_comm : ∀ a b : Value, a.same b = b.same a
  | .string a, b => by cases b <;> simp [same, decimal?, Bool.beq_comm]
  | .bool a, b => by cases b <;> simp [same, decimal?, Bool.beq_comm]
  | .null, b => by cases b <;> simp [same, decimal?]
  | .stored a, b => by cases b <;> simp [same, decimal?, Bool.beq_comm]
  | .int a, b => by cases b <;> simp [same, decimal?, Decimal.same_comm]
  | .decimal a, b => by cases b <;> simp [same, decimal?, Decimal.same_comm]
  | .list as, b => by
    cases b with
    | list bs => rw [same, same, sameAll_comm as bs]
    | _ => simp [same, decimal?]
  | .map as, b => by
    cases b with
    | map bs => rw [same, same, sameFields_comm as bs]
    | _ => simp [same, decimal?]

/-- Whether lists are the same does not depend on which comes first. -/
lemma sameAll_comm : ∀ as bs : List Value, sameAll as bs = sameAll bs as
  | [], bs => by cases bs <;> rfl
  | _ :: _, [] => rfl
  | a :: as, b :: bs => by
    rw [sameAll, sameAll, same_comm a b, sameAll_comm as bs]

/-- Whether fields are the same does not depend on which come first. -/
lemma sameFields_comm : ∀ as bs : List (String × Value), sameFields as bs = sameFields bs as
  | [], bs => by cases bs <;> rfl
  | _ :: _, [] => rfl
  | (k, a) :: as, (l, b) :: bs => by
    rw [sameFields, sameFields, same_comm a b, sameFields_comm as bs, Bool.beq_comm]

end

/-- Numbers of one value are the same. -/
lemma same_of_decimal? {v w : Value} {x y : Decimal} (hv : v.decimal? = some x)
    (hw : w.decimal? = some y) (h : y.value = x.value) : v.same w = true := by
  have hsame : x.same y = true := Decimal.same_iff.2 h.symm
  cases v <;> cases hv <;> cases w <;> cases hw <;> exact hsame

/-- Only a number is the same as a number. -/
lemma isSome_decimal?_of_same {v w : Value} (h : v.same w = true) :
    v.decimal?.isSome = w.decimal?.isSome := by
  unfold same at h
  split at h
  case h_7 =>
    split at h
    next hv hw => rw [hv, hw, Option.isSome_some, Option.isSome_some]
    next => cases h
  all_goals rfl

/-- The order of two values is turned around with them. -/
lemma order?_swap (a b : Value) : order? a b = (order? b a).map Ordering.swap := by
  unfold order?
  cases ha : a.decimal? with
  | some x =>
    cases hb : b.decimal? with
    | some y =>
      change some (x.compare y) = some (y.compare x).swap
      rw [Decimal.compare_eq, Decimal.compare_eq, ← Std.OrientedOrd.eq_swap]
    | none => cases a <;> cases b <;> simp_all [decimal?, string?]
  | none =>
    cases a.string? with
    | some s =>
      cases b.string? with
      | some t =>
        cases b.decimal? <;> simp [← Std.OrientedOrd.eq_swap (a := s) (b := t)]
      | none => cases b.decimal? <;> rfl
    | none => cases b.decimal? <;> cases b.string? <;> rfl

/-- A comparison with its operands exchanged is the exchanged comparison. -/
lemma compare?_exchanged {op turned : Comparison} (h : op.exchanged? = some turned)
    (a b : Value) : compare? turned a b = compare? op b a := by
  have swapped : ∀ p q : Ordering → Bool, (∀ o, p o.swap = q o) →
      (a.order? b).map p = (b.order? a).map q := by
    intro p q hpq
    rw [order?_swap a b, Option.map_map]
    exact congrArg (Option.map · _) (funext hpq)
  cases op <;> cases h
  case eq | ne => rw [compare?, compare?, same_comm]
  all_goals
    apply swapped
    intro o
    cases o <;> rfl

end Value

end TableQuery
