import TableQuery.Proofs.Decimal.Order
import TableQuery.Proofs.Text.Digits

/-!
# Arithmetic on decimals is exact

The sum and the difference of two decimals, at whatever scale they are given, stand for the sum and
the difference of the rational numbers that the decimals stand for.
-/

namespace TableQuery

/-- A number lies in the range of the machine integers. -/
def FitsInt64 (q : ℚ) : Prop :=
  -2 ^ 63 ≤ q ∧ q < 2 ^ 63

/-- An integer fits exactly if it is that of a machine integer. -/
lemma fitsInt64_iff {n : ℤ} : FitsInt64 n ↔ ∃ k, Text.int64? n = some k := by
  have hcast : FitsInt64 n ↔ -2 ^ 63 ≤ n ∧ n < 2 ^ 63 := by
    unfold FitsInt64
    norm_cast
  rw [hcast]
  simp only [Text.int64?_eq_some_iff]
  constructor
  · rintro ⟨hlow, hhigh⟩
    exact ⟨.ofInt n, Int64.toInt_ofInt_of_le hlow hhigh⟩
  · rintro ⟨k, rfl⟩
    exact ⟨k.le_toInt, k.toInt_lt⟩

/-- An integer does not fit exactly if there is no machine integer for it. -/
lemma not_fitsInt64_iff {n : ℤ} : ¬ FitsInt64 n ↔ Text.int64? n = none := by
  rw [fitsInt64_iff, ← Option.isSome_iff_exists, Option.not_isSome_iff_eq_none]

namespace Decimal

/-- The value of a sum is the sum of the values. -/
lemma value_add (a b : Decimal) : (a + b).value = a.value + b.value := by
  rw [value_eq_coefficientAt (scale_le_max_left a b),
    value_eq_coefficientAt (scale_le_max_right a b), ← add_mul, ← Int.cast_add]
  rfl

/-- The value of a difference is the difference of the values. -/
lemma value_sub (a b : Decimal) : (a - b).value = a.value - b.value := by
  show (Decimal.sub a b).value = _
  unfold Decimal.sub
  split
  next hb => rw [(value_eq_zero_iff b).2 hb, sub_zero]
  next =>
    split
    next ha => rw [(value_eq_zero_iff a).2 ha, zero_sub, value_neg]
    next =>
      rw [value_eq_coefficientAt (scale_le_max_left a b),
        value_eq_coefficientAt (scale_le_max_right a b), ← sub_mul, ← Int.cast_sub]
      rfl

end Decimal

end TableQuery
