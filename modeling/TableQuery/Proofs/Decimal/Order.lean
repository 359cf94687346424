import Mathlib.Algebra.Order.Field.Power
import Mathlib.Data.Rat.Cast.Order
import Mathlib.Order.Compare
import Mathlib.Tactic.FieldSimp
import Mathlib.Tactic.Positivity
import Mathlib.Tactic.Ring
import TableQuery.Decimal.Basic

/-!
# The order of decimals is that of their numbers

Decimals are compared by sign, by magnitude and only then at one scale. This decides the order of
the rational numbers that they stand for, so two decimals are the same exactly if their numbers are.
-/

namespace TableQuery

/-- Comparisons agree if they agree on what is less. -/
lemma compare_eq_compare {α β : Type} [LinearOrder α] [LinearOrder β] {a b : α} {c d : β}
    (lt : a < b ↔ c < d) (gt : b < a ↔ d < c) : compare a b = compare c d := by
  rcases lt_trichotomy a b with h | h | h
  · rw [compare_lt_iff_lt.2 h, compare_lt_iff_lt.2 (lt.1 h)]
  · have e : c = d := by
      apply le_antisymm
      · exact not_lt.1 fun g => absurd (gt.2 g) (h ▸ lt_irrefl a)
      · exact not_lt.1 fun g => absurd (lt.2 g) (h ▸ lt_irrefl a)
    rw [compare_eq_iff_eq.2 h, compare_eq_iff_eq.2 e]
  · rw [compare_gt_iff_gt.2 h, compare_gt_iff_gt.2 (gt.1 h)]

namespace Decimal

/-- The number that a decimal stands for. -/
def value (d : Decimal) : ℚ :=
  d.coefficient * (10 : ℚ) ^ (-d.scale.toInt)

/-- The number of a negated decimal. -/
lemma value_neg (d : Decimal) : d.neg.value = -d.value := by
  rw [value, value, Decimal.neg]
  push_cast
  ring

/-- The number of an integer. -/
lemma value_ofInt (n : Int) : (ofInt n).value = n := by
  change (n : ℚ) * (10 : ℚ) ^ (-(0 : Int)) = n
  rw [neg_zero, zpow_zero, mul_one]

/-- A decimal at a scale not below its own. -/
lemma value_eq_coefficientAt {d : Decimal} {s : Int64} (h : d.scale.toInt ≤ s.toInt) :
    d.value = d.coefficientAt s * (10 : ℚ) ^ (-s.toInt) := by
  have e : (-d.scale.toInt) = ((s.toInt - d.scale.toInt).toNat : ℤ) + -s.toInt := by omega
  rw [value, coefficientAt, e, zpow_add₀ (by norm_num), zpow_natCast]
  push_cast [Nat.pow_eq]
  ring

/-- The greater of two machine integers is the greater of their values. -/
lemma toInt_max (a b : Int64) : (max a b).toInt = max a.toInt b.toInt := by
  have h : max a b = if a ≤ b then b else a := rfl
  rw [h]
  split
  next hab => rw [max_eq_right (Int64.le_iff_toInt_le.1 hab)]
  next hab =>
    have := mt Int64.le_iff_toInt_le.2 hab
    rw [max_eq_left (by omega)]

/-- The first scale is at most the greater of both. -/
lemma scale_le_max_left (a b : Decimal) : a.scale.toInt ≤ (max a.scale b.scale).toInt := by
  rw [toInt_max]
  exact le_max_left _ _

/-- The second scale is at most the greater of both. -/
lemma scale_le_max_right (a b : Decimal) : b.scale.toInt ≤ (max a.scale b.scale).toInt := by
  rw [toInt_max]
  exact le_max_right _ _

/-- The absolute value of a decimal. -/
lemma abs_value (d : Decimal) :
    |d.value| = d.coefficient.natAbs * (10 : ℚ) ^ (-d.scale.toInt) := by
  have h : (0 : ℚ) < (10 : ℚ) ^ (-d.scale.toInt) := by positivity
  rw [value, abs_mul, abs_of_pos h, Nat.cast_natAbs, Int.cast_abs]

/-- A positive number lies between two powers of ten next to its number of digits. -/
lemma pow_digitCount_bounds {n : Nat} (hn : n ≠ 0) :
    10 ^ (digitCount n - 1) ≤ n ∧ n < 10 ^ digitCount n := by
  have pos : 0 < digitCount n := Nat.length_toDigits_pos
  constructor
  · by_contra h
    have one : digitCount n ≠ 1 := by
      intro e
      rw [e] at h
      exact h (Nat.one_le_iff_ne_zero.2 hn)
    have := (Nat.length_toDigits_le_iff (b := 10) (n := n) (k := digitCount n - 1) (by decide)
      (by omega)).2 (by omega)
    unfold digitCount Text.digits at *
    omega
  · exact (Nat.length_toDigits_le_iff (by decide) pos).1 le_rfl

/-- A number other than zero lies below the power of ten of its magnitude, and not below the one
before that. -/
lemma magnitude_bounds {d : Decimal} (h : d.coefficient ≠ 0) :
    (10 : ℚ) ^ (d.magnitude - 1) ≤ |d.value| ∧ |d.value| < (10 : ℚ) ^ d.magnitude := by
  have hn : d.coefficient.natAbs ≠ 0 := Int.natAbs_ne_zero.2 h
  obtain ⟨lo, hi⟩ := pow_digitCount_bounds hn
  have pos : 0 < digitCount d.coefficient.natAbs := Nat.length_toDigits_pos
  have scale : (0 : ℚ) < (10 : ℚ) ^ (-d.scale.toInt) := by positivity
  have split_lo : (10 : ℚ) ^ (d.magnitude - 1)
      = (10 ^ (digitCount d.coefficient.natAbs - 1) : ℕ) * (10 : ℚ) ^ (-d.scale.toInt) := by
    have e : d.magnitude - 1
        = ((digitCount d.coefficient.natAbs - 1 : ℕ) : ℤ) + -d.scale.toInt := by
      unfold magnitude
      omega
    rw [e, zpow_add₀ (by norm_num), zpow_natCast]
    push_cast
    rfl
  have split_hi : (10 : ℚ) ^ d.magnitude
      = (10 ^ digitCount d.coefficient.natAbs : ℕ) * (10 : ℚ) ^ (-d.scale.toInt) := by
    rw [magnitude, sub_eq_add_neg, zpow_add₀ (by norm_num), zpow_natCast]
    push_cast
    rfl
  rw [abs_value, split_lo, split_hi]
  constructor
  · exact mul_le_mul_of_nonneg_right (by exact_mod_cast lo) scale.le
  · exact mul_lt_mul_of_pos_right (by exact_mod_cast hi) scale

/-- Of two numbers other than zero the one of smaller magnitude is smaller. -/
lemma abs_lt_of_magnitude_lt {a b : Decimal} (ha : a.coefficient ≠ 0) (hb : b.coefficient ≠ 0)
    (h : a.magnitude < b.magnitude) : |a.value| < |b.value| := by
  have step : (10 : ℚ) ^ a.magnitude ≤ (10 : ℚ) ^ (b.magnitude - 1) :=
    zpow_le_zpow_right₀ (by norm_num) (by omega)
  exact (magnitude_bounds ha).2.trans_le (step.trans (magnitude_bounds hb).1)

/-- At one scale the coefficients decide. -/
lemma compare_natAbs_coefficientAt (a b : Decimal) {s : Int64} (ha : a.scale.toInt ≤ s.toInt)
    (hb : b.scale.toInt ≤ s.toInt) :
    compare (a.coefficientAt s).natAbs (b.coefficientAt s).natAbs
      = compare |a.value| |b.value| := by
  have pos : (0 : ℚ) < (10 : ℚ) ^ (-s.toInt) := by positivity
  have abs_at : ∀ {d : Decimal}, d.scale.toInt ≤ s.toInt →
      |d.value| = ((d.coefficientAt s).natAbs : ℚ) * (10 : ℚ) ^ (-s.toInt) := by
    intro d hd
    rw [value_eq_coefficientAt hd, abs_mul, abs_of_pos pos, Nat.cast_natAbs, Int.cast_abs]
  rw [abs_at ha, abs_at hb]
  apply compare_eq_compare
  · rw [mul_lt_mul_iff_left₀ pos, Nat.cast_lt]
  · rw [mul_lt_mul_iff_left₀ pos, Nat.cast_lt]

/-- Zero alone has the coefficient zero. -/
lemma value_eq_zero_iff (d : Decimal) : d.value = 0 ↔ d.coefficient = 0 := by
  rw [value, mul_eq_zero, Int.cast_eq_zero]
  exact or_iff_left (by positivity)

/-- Against zero the coefficients decide. -/
lemma natAbs_lt_iff_of_zero {a b : Decimal} (h : a.coefficient = 0 ∨ b.coefficient = 0) :
    a.coefficient.natAbs < b.coefficient.natAbs ↔ |a.value| < |b.value| := by
  rcases h with h | h
  · rw [(value_eq_zero_iff a).2 h, h, abs_zero, abs_pos, Int.natAbs_zero, Int.natAbs_pos, Ne, Ne,
      value_eq_zero_iff]
  · rw [(value_eq_zero_iff b).2 h, h, abs_zero, Int.natAbs_zero]
    exact iff_of_false (Nat.not_lt_zero _) (abs_nonneg _).not_gt

/-- The order of absolute values is that of the absolute values of the numbers. -/
lemma compareAbs_eq (a b : Decimal) : a.compareAbs b = compare |a.value| |b.value| := by
  unfold compareAbs
  split
  next h => exact compare_eq_compare (natAbs_lt_iff_of_zero h) (natAbs_lt_iff_of_zero h.symm)
  next h =>
    obtain ⟨ha, hb⟩ := not_or.1 h
    -- magnitudes that differ decide, and equal ones leave it to the coefficients at one scale
    rcases lt_trichotomy a.magnitude b.magnitude with hm | hm | hm
    · rw [compare_lt_iff_lt.2 hm, compare_lt_iff_lt.2 (abs_lt_of_magnitude_lt ha hb hm)]
    · rw [compare_eq_iff_eq.2 hm]
      exact compare_natAbs_coefficientAt a b (scale_le_max_left a b) (scale_le_max_right a b)
    · rw [compare_gt_iff_gt.2 hm, compare_gt_iff_gt.2 (abs_lt_of_magnitude_lt hb ha hm)]

/-- A number is negative exactly if its coefficient is. -/
lemma value_neg_iff (d : Decimal) : d.value < 0 ↔ d.coefficient < 0 := by
  have pos : (0 : ℚ) < (10 : ℚ) ^ (-d.scale.toInt) := by positivity
  have h := mul_lt_mul_iff_left₀ pos (b := (d.coefficient : ℚ)) (c := 0)
  rw [zero_mul, Int.cast_lt_zero] at h
  exact h

/-- Of two numbers the one with the smaller sign is smaller. -/
lemma value_lt_of_sign_lt {a b : Decimal} (h : a.coefficient.sign < b.coefficient.sign) :
    a.value < b.value := by
  have neg := value_neg_iff
  have zero := value_eq_zero_iff
  rcases lt_trichotomy a.coefficient 0 with ha | ha | ha
  · have hb : ¬b.coefficient < 0 := by
      intro hb
      rw [Int.sign_eq_neg_one_of_neg ha, Int.sign_eq_neg_one_of_neg hb] at h
      exact lt_irrefl _ h
    exact ((neg a).2 ha).trans_le (not_lt.1 (mt (neg b).1 hb))
  · have hb : 0 < b.coefficient := by
      rw [ha, Int.sign_zero] at h
      exact Int.sign_pos_iff.1 h
    rw [(zero a).2 ha]
    exact lt_of_le_of_ne (not_lt.1 (mt (neg b).1 hb.not_gt)) (Ne.symm (mt (zero b).1 hb.ne'))
  · rw [Int.sign_eq_one_of_pos ha] at h
    have := Int.sign_trichotomy b.coefficient
    omega

/-- The order of decimals is the order of their numbers. -/
lemma compare_eq (a b : Decimal) : a.compare b = compare a.value b.value := by
  unfold Decimal.compare
  rcases lt_trichotomy a.coefficient.sign b.coefficient.sign with h | h | h
  · rw [compare_lt_iff_lt.2 h, compare_lt_iff_lt.2 (value_lt_of_sign_lt h)]
  · rw [compare_eq_iff_eq.2 h]
    dsimp only
    split
    next ha =>
      have hb : b.coefficient < 0 := by
        rwa [← Int.sign_neg_iff, ← h, Int.sign_neg_iff]
      rw [compareAbs_eq, abs_of_neg ((value_neg_iff a).2 ha), abs_of_neg ((value_neg_iff b).2 hb)]
      exact compare_eq_compare neg_lt_neg_iff neg_lt_neg_iff
    next ha =>
      have hb : ¬b.coefficient < 0 := by
        rwa [← Int.sign_neg_iff, ← h, Int.sign_neg_iff]
      rw [compareAbs_eq, abs_of_nonneg (not_lt.1 (mt (value_neg_iff a).1 ha)),
        abs_of_nonneg (not_lt.1 (mt (value_neg_iff b).1 hb))]
  · rw [compare_gt_iff_gt.2 h, compare_gt_iff_gt.2 (value_lt_of_sign_lt h)]

/-- Two decimals are the same exactly if they stand for one number. -/
lemma same_iff {a b : Decimal} : a.same b = true ↔ a.value = b.value := by
  rw [same, compare_eq, beq_iff_eq, compare_eq_iff_eq]

end Decimal

end TableQuery
