import Mathlib.Tactic.Common
import TableQuery.Text.Blank
import TableQuery.Word

/-!
# Characters of words

The characters that begin a word, go on with one, or stand between words are told apart by their
codes.
-/

namespace TableQuery

/-- The blanks are the first characters, or come behind all letters. -/
lemma isBlank_eq_false {c : Char} (h : 32 < c.toNat) (h' : c.toNat < 0x85) :
    Text.isBlank c = false := by
  rw [← Bool.not_eq_true]
  intro hb
  simp only [Text.isBlank, Bool.or_eq_true, Bool.and_eq_true, decide_eq_true_eq, beq_iff_eq,
    Char.le_def, UInt32.le_iff_toNat_le] at hb
  rcases hb with
    (((((((((hlow | rfl) | rfl) | rfl) | rfl) | hhigh) | rfl) | rfl) | rfl) | rfl) | rfl
  case inl.inl.inl.inl.inl.inl.inl.inl.inl.inl =>
    have : c.toNat ≤ 13 := hlow.2
    omega
  case inl.inl.inl.inl.inl.inr =>
    have : 0x2000 ≤ c.toNat := hhigh.1
    omega
  all_goals first | exact absurd h (by decide) | exact absurd h' (by decide)

/-- A digit is no blank. -/
lemma isBlank_of_isDigit {c : Char} (h : c.isDigit = true) : Text.isBlank c = false := by
  have hcode : 48 ≤ c.toNat ∧ c.toNat ≤ 57 := Char.isDigit_iff_toNat.mp h
  exact isBlank_eq_false (by omega) (by omega)

namespace Word

/-- The codes of the capital letters. -/
lemma bounds_of_isUpper {c : Char} (h : c.isUpper = true) : 65 ≤ c.toNat ∧ c.toNat ≤ 90 := by
  have ⟨hlow, hhigh⟩ : c.val ≥ 'A'.val ∧ c.val ≤ 'Z'.val := of_decide_eq_true h
  exact ⟨UInt32.le_iff_toNat_le.mp hlow, UInt32.le_iff_toNat_le.mp hhigh⟩

/-- The codes of the small letters. -/
lemma bounds_of_isLower {c : Char} (h : c.isLower = true) : 97 ≤ c.toNat ∧ c.toNat ≤ 122 := by
  have ⟨hlow, hhigh⟩ := Bool.and_eq_true_iff.mp h
  exact ⟨UInt32.le_iff_toNat_le.mp (of_decide_eq_true hlow),
    UInt32.le_iff_toNat_le.mp (of_decide_eq_true hhigh)⟩

/-- The codes of the characters that begin a word. -/
lemma bounds_of_isStart {c : Char} (h : isStart c = true) : 57 < c.toNat ∧ c.toNat < 0x85 := by
  unfold isStart Char.isAlpha at h
  rw [Bool.or_eq_true, Bool.or_eq_true, beq_iff_eq] at h
  rcases h with (h | h) | rfl
  · have := bounds_of_isUpper h
    omega
  · have := bounds_of_isLower h
    omega
  · decide

/-- A character that begins a word is no blank. -/
lemma isBlank_of_isStart {c : Char} (h : isStart c = true) : Text.isBlank c = false := by
  have := bounds_of_isStart h
  exact isBlank_eq_false (by omega) (by omega)

/-- A character that begins a word is no digit. -/
lemma isDigit_of_isStart {c : Char} (h : isStart c = true) : c.isDigit = false := by
  have := bounds_of_isStart h
  rw [← Bool.not_eq_true]
  intro hdigit
  have hcode : 48 ≤ c.toNat ∧ c.toNat ≤ 57 := Char.isDigit_iff_toNat.mp hdigit
  omega

/-- A character that begins a word goes on with one. -/
lemma isPart_of_isStart {c : Char} (h : isStart c = true) : isPart c = true := by
  unfold isStart at h
  unfold isPart Char.isAlphanum
  rw [Bool.or_eq_true] at h ⊢
  rw [Bool.or_eq_true]
  exact h.imp_left .inl

/-- A digit goes on with a word. -/
lemma isPart_of_isDigit {c : Char} (h : c.isDigit = true) : isPart c = true := by
  unfold isPart Char.isAlphanum
  rw [h, Bool.or_true, Bool.true_or]

end Word

end TableQuery
