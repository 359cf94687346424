import Mathlib.Algebra.Order.Floor.Ring
import Mathlib.Data.Rat.Floor
import TableQuery.Proofs.Decimal.Arith

/-!
# Cutting a decimal off at its point

A decimal is cut off toward zero, and the result is a machine integer exactly if it fits. The bounds
that are tested before are those of the numbers whose whole part fits. So a power of ten is only
written out for a decimal with few zeros before the point, or with a digit there.
-/

namespace TableQuery

/-- A number cut off at its point, toward zero. -/
def truncated (q : ℚ) : ℤ :=
  if q < 0 then ⌈q⌉ else ⌊q⌋

/-- A number that is not negative is cut off downwards. -/
lemma truncated_of_nonneg {q : ℚ} (h : 0 ≤ q) : truncated q = ⌊q⌋ :=
  if_neg h.not_gt

/-- A number that is not positive is cut off upwards. -/
lemma truncated_of_nonpos {q : ℚ} (h : q ≤ 0) : truncated q = ⌈q⌉ := by
  unfold truncated
  split
  next => rfl
  next hneg => rw [le_antisymm h (not_lt.1 hneg), Int.floor_zero, Int.ceil_zero]

/-- An integer is cut off nowhere. -/
lemma truncated_intCast (n : ℤ) : truncated n = n := by
  unfold truncated
  split
  next => exact Int.ceil_intCast n
  next => exact Int.floor_intCast n

/-- A fraction is cut off by the division that rounds toward zero. -/
lemma truncated_div (n : ℤ) (k : ℕ) : truncated (n / k) = n.tdiv k := by
  have hk : (0 : ℚ) ≤ k := Nat.cast_nonneg k
  rcases le_total 0 n with hn | hn
  · have hq : (0 : ℚ) ≤ n / k := div_nonneg (Int.cast_nonneg hn) hk
    rw [truncated_of_nonneg hq, Rat.floor_intCast_div_natCast, Int.tdiv_eq_ediv_of_nonneg hn]
  · have hq : (n : ℚ) / k ≤ 0 := div_nonpos_of_nonpos_of_nonneg (Int.cast_nonpos.2 hn) hk
    have hfloor : ⌊((-n : ℤ) : ℚ) / k⌋ = -⌈(n : ℚ) / k⌉ := by
      rw [Int.cast_neg, neg_div, Int.floor_neg]
    rw [Rat.floor_intCast_div_natCast, ← Int.tdiv_eq_ediv_of_nonneg (by omega),
      Int.neg_tdiv] at hfloor
    rw [truncated_of_nonpos hq]
    omega

/-- Only a number of absolute value below one is cut off to zero. -/
lemma truncated_eq_zero_of_abs_lt {q : ℚ} (h : |q| < 1) : truncated q = 0 := by
  obtain ⟨hlow, hhigh⟩ := abs_lt.1 h
  unfold truncated
  split
  next hneg => exact Int.ceil_eq_zero_iff.2 ⟨hlow, hneg.le⟩
  next hneg => exact Int.floor_eq_zero_iff.2 ⟨not_lt.1 hneg, hhigh⟩

/-- The whole part fits exactly if the number lies strictly between the bounds that are tested. -/
lemma fitsInt64_truncated_iff {q : ℚ} :
    FitsInt64 (truncated q) ↔ -2 ^ 63 - 1 < q ∧ q < 2 ^ 63 := by
  have hcast : FitsInt64 (truncated q) ↔ -2 ^ 63 ≤ truncated q ∧ truncated q < 2 ^ 63 := by
    unfold FitsInt64
    norm_cast
  rw [hcast]
  rcases le_total 0 q with hq | hq
  · have hfloor : 0 ≤ ⌊q⌋ := Int.floor_nonneg.2 hq
    rw [truncated_of_nonneg hq, Int.floor_lt]
    refine and_congr (iff_of_true (by omega) (by linarith)) ?_
    norm_cast
  · have hceil : ⌈q⌉ ≤ 0 := Int.ceil_le.2 (by exact_mod_cast hq)
    rw [truncated_of_nonpos hq, ← Int.sub_one_lt_iff, Int.lt_ceil]
    refine and_congr ?_ (iff_of_true (by omega) (by linarith))
    norm_cast

namespace Decimal

/-- The whole part of a decimal is its value cut off. -/
lemma wholePart_eq (d : Decimal) : d.wholePart = truncated d.value := by
  unfold wholePart
  split
  next h =>
    rw [Int64.lt_iff_toInt_lt, Int64.toInt_zero] at h
    have hvalue : d.value = (d.coefficient * Nat.pow 10 (-d.scale.toInt).toNat : ℤ) := by
      have e : -d.scale.toInt = ((-d.scale.toInt).toNat : ℤ) := by omega
      rw [value, e, zpow_natCast]
      push_cast [Nat.pow_eq]
      rfl
    rw [hvalue, truncated_intCast]
  next h =>
    rw [Int64.lt_iff_toInt_lt, Int64.toInt_zero] at h
    have hvalue : d.value = d.coefficient / (Nat.pow 10 d.scale.toInt.toNat : ℕ) := by
      have e : d.scale.toInt = (d.scale.toInt.toNat : ℤ) := by omega
      rw [value, e, zpow_neg, zpow_natCast, div_eq_mul_inv]
      push_cast [Nat.pow_eq]
      rfl
    rw [hvalue, truncated_div]

/-- A decimal compares as less than an integer if its value is less. -/
lemma compare_ofInt_lt_iff {d : Decimal} {n : ℤ} : d.compare (ofInt n) = .lt ↔ d.value < n := by
  rw [compare_eq, value_ofInt, compare_lt_iff_lt]

/-- A decimal compares as greater than an integer if its value is greater. -/
lemma compare_ofInt_gt_iff {d : Decimal} {n : ℤ} : d.compare (ofInt n) = .gt ↔ n < d.value := by
  rw [compare_eq, value_ofInt, compare_gt_iff_gt]

/-- A decimal compares as smaller than one, sign aside, if its value is. -/
lemma compareAbs_one_lt_iff {d : Decimal} : d.compareAbs (ofInt 1) = .lt ↔ |d.value| < 1 := by
  rw [compareAbs_eq, value_ofInt, compare_lt_iff_lt, Int.cast_one, abs_one]

/-- A decimal passes the tests before it is brought to scale zero. -/
def Rescales (d : Decimal) : Prop :=
  d.compare (ofInt 0x8000000000000000) = .lt ∧ d.compare (ofInt (-0x8000000000000001)) = .gt
    ∧ d.compareAbs (ofInt 1) ≠ .lt

instance (d : Decimal) : Decidable d.Rescales :=
  inferInstanceAs (Decidable (_ ∧ _ ∧ _))

/-- The tests are passed by values between the two bounds that are not below one in size. -/
lemma rescales_iff {d : Decimal} :
    d.Rescales ↔ d.value < 2 ^ 63 ∧ -2 ^ 63 - 1 < d.value ∧ 1 ≤ |d.value| := by
  unfold Rescales
  rw [ne_eq, compare_ofInt_lt_iff, compare_ofInt_gt_iff, compareAbs_one_lt_iff, not_lt]
  norm_num

/-- A decimal that is brought to scale zero loses no more places than it has digits, and gets fewer
than 19 zeros. -/
lemma scale_bounds_of_rescales {d : Decimal} (h : d.Rescales) :
    -19 < d.scale.toInt ∧ d.scale.toInt < digitCount d.coefficient.natAbs := by
  obtain ⟨hhigh, hlow, hone⟩ := rescales_iff.1 h
  have hne : d.coefficient ≠ 0 := by
    intro hzero
    rw [(value_eq_zero_iff d).2 hzero, abs_zero] at hone
    linarith
  obtain ⟨hbelow, habove⟩ := magnitude_bounds hne
  have hdigits : 0 < digitCount d.coefficient.natAbs := Nat.length_toDigits_pos
  have htop : |d.value| < (10 : ℚ) ^ (19 : ℤ) := by
    apply abs_lt.2
    constructor <;> norm_num <;> linarith
  have hsmall : d.magnitude - 1 < 19 :=
    (zpow_lt_zpow_iff_right₀ (by norm_num)).1 (hbelow.trans_lt htop)
  have hlarge : 0 < d.magnitude := by
    rw [← zpow_lt_zpow_iff_right₀ (a := (10 : ℚ)) (by norm_num), zpow_zero]
    exact hone.trans_lt habove
  unfold magnitude at hsmall hlarge
  omega

/-- A decimal is cut off to the machine integer that its number is cut off to, if there is one. -/
lemma truncate?_eq (d : Decimal) : d.truncate? = Text.int64? (truncated d.value) := by
  unfold truncate?
  simp only [ne_eq, compare_ofInt_lt_iff, compare_ofInt_gt_iff, compareAbs_one_lt_iff]
  -- outside of the bounds nothing fits, and between them the whole part decides
  split
  next hhigh =>
    symm
    apply not_fitsInt64_iff.1
    rw [fitsInt64_truncated_iff]
    exact fun h => hhigh (by exact_mod_cast h.2)
  next =>
    split
    next hlow =>
      symm
      apply not_fitsInt64_iff.1
      rw [fitsInt64_truncated_iff]
      refine fun h => hlow ?_
      norm_num at h ⊢
      exact h.1
    next =>
      split
      next hone =>
        rw [truncated_eq_zero_of_abs_lt hone]
        rfl
      next => rw [wholePart_eq]

end Decimal

end TableQuery
