import Mathlib.Algebra.Group.Nat.Defs
import Mathlib.Tactic.Common
import TableQuery.Text.Digits

/-!
# Reading written digits

The digits of a whole number are read back as that number, and the two machine ranges are tested
exactly.
-/

namespace TableQuery.Text

/-- The digits of a number have its value. -/
lemma digitsValue_digits (n : Nat) : digitsValue (digits n) = n :=
  Nat.ofDigitChars_ten_toDigits

/-- Digits are written with digits only. -/
lemma all_isDigit_digits (n : Nat) : (digits n).all Char.isDigit := by
  rw [List.all_eq_true]
  intro c hc
  exact Nat.isDigit_of_mem_toDigits (by decide) (by decide) hc

/-- Every number has a digit. -/
lemma digits_ne_nil (n : Nat) : digits n ≠ [] :=
  Nat.toDigits_ne_nil

/-- Zeros behind digits multiply their value by powers of ten. -/
lemma digitsValue_append_zeros (s : List Char) (k : Nat) :
    digitsValue (s ++ List.replicate k '0') = 10 ^ k * digitsValue s := by
  have h := Nat.ofDigitChars_append (b := 10) (l := s) (m := List.replicate k '0') 0
  rw [Nat.ofDigitChars_replicate_zero] at h
  exact h

/-- Zeros in front of digits do not count. -/
lemma digitsValue_zeros_append (s : List Char) (k : Nat) :
    digitsValue (List.replicate k '0' ++ s) = digitsValue s := by
  have h := Nat.ofDigitChars_append (b := 10) (l := List.replicate k '0') (m := s) 0
  rw [Nat.ofDigitChars_replicate_zero] at h
  exact h

/-- A power of ten in a positive number is written as zeros behind its other digits. -/
lemma digits_mul_pow {n : Nat} (hn : 0 < n) (k : Nat) :
    digits (10 ^ k * n) = digits n ++ List.replicate k '0' := by
  induction k with
  | zero => rw [Nat.pow_zero, Nat.one_mul, List.replicate_zero, List.append_nil]
  | succ k ih =>
    have hpos : 0 < 10 ^ k * n := Nat.mul_pos (Nat.pow_pos (by decide)) hn
    have h := Nat.toDigits_append_toDigits (b := 10) (d := 0) (by decide) hpos (by decide)
    have e : 10 ^ (k + 1) * n = 10 * (10 ^ k * n) + 0 := by
      rw [Nat.pow_succ, Nat.add_zero, Nat.mul_comm (10 ^ k) 10, Nat.mul_assoc]
    rw [List.replicate_succ', ← List.append_assoc, ← ih, e]
    exact h.symm

/-- A nonempty string of digits is read as its value. -/
lemma natOfDigits?_eq_some {s : List Char} (hs : s ≠ []) (hd : s.all Char.isDigit) :
    natOfDigits? s = some (digitsValue s) :=
  if_pos ⟨hs, hd⟩

/-- The digits of a number are read as that number. -/
lemma natOfDigits?_digits (n : Nat) : natOfDigits? (digits n) = some n := by
  rw [natOfDigits?_eq_some (digits_ne_nil n) (all_isDigit_digits n), digitsValue_digits]

/-- What is read as a number are digits. -/
lemma all_isDigit_of_natOfDigits? {s : List Char} {n : Nat} (h : natOfDigits? s = some n) :
    s.all Char.isDigit := by
  unfold natOfDigits? at h
  split at h
  next hs => exact hs.2
  next => cases h

/-- A whole number is a machine integer exactly if it is the value of one. -/
lemma int64?_eq_some_iff {n : Int} {m : Int64} : int64? n = some m ↔ m.toInt = n := by
  unfold int64?
  constructor
  · intro h
    split at h
    next hn =>
      cases h
      exact Int64.toInt_ofInt_of_le hn.1 hn.2
    next => cases h
  · rintro rfl
    have lo := m.le_toInt
    have hi := m.toInt_lt
    rw [if_pos (by omega), Int64.ofInt_toInt]

/-- A natural number is a machine index exactly if it is the value of one. -/
lemma uint64?_eq_some_iff {n : Nat} {i : UInt64} : uint64? n = some i ↔ i.toNat = n := by
  unfold uint64?
  constructor
  · intro h
    split at h
    next hn =>
      cases h
      exact UInt64.toNat_ofNat_of_lt' hn
    next => cases h
  · rintro rfl
    rw [if_pos i.toNat_lt, UInt64.ofNat_toNat]

/-- Characters are a machine integer if they write its number. -/
lemma int64OfDigits?_eq_some_iff {s : List Char} {n : Int64} :
    int64OfDigits? s = some n ↔ intOfDigits? s = some n.toInt := by
  unfold int64OfDigits?
  rw [Option.bind_eq_some_iff]
  constructor
  · rintro ⟨k, hk, hn⟩
    rw [hk, int64?_eq_some_iff.1 hn]
  · intro h
    exact ⟨n.toInt, h, int64?_eq_some_iff.2 rfl⟩

/-- Digits are a machine index if they write its number. -/
lemma bind_uint64?_eq_some_iff {s : List Char} {i : UInt64} :
    (natOfDigits? s).bind uint64? = some i ↔ natOfDigits? s = some i.toNat := by
  rw [Option.bind_eq_some_iff]
  constructor
  · rintro ⟨k, hk, hi⟩
    rw [hk, uint64?_eq_some_iff.1 hi]
  · intro h
    exact ⟨i.toNat, h, uint64?_eq_some_iff.2 rfl⟩

/-- A number that does not begin with a sign is read as digits. -/
lemma intOfDigits?_of_head {s : List Char} (hm : s.head? ≠ some '-') (hp : s.head? ≠ some '+') :
    intOfDigits? s = (natOfDigits? s).map fun n : Nat => (n : Int) := by
  unfold intOfDigits?
  split
  next => exact absurd rfl hm
  next => exact absurd rfl hp
  next => cases natOfDigits? s <;> rfl

/-- An index that does not begin with a sign is read as digits. -/
lemma uint64OfDigits?_of_head {s : List Char} (hp : s.head? ≠ some '+') :
    uint64OfDigits? s = (natOfDigits? s).bind uint64? := by
  unfold uint64OfDigits?
  split
  next => exact absurd rfl hp
  next => rfl

end TableQuery.Text
