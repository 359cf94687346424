import Mathlib.Data.List.Forall2
import TableQuery.Proofs.Stored.Codec
import TableQuery.Proofs.Word
import TableQuery.Term.Basic

/-!
# The names of types

A type test names its type by one of eleven words, in any letter case, and by no other word.
-/

namespace TableQuery

namespace Word

/-- The code of the capital of a character. -/
lemma toNat_toUpper (c : Char) :
    c.toUpper.toNat = if 97 ≤ c.toNat ∧ c.toNat ≤ 122 then c.toNat - 32 else c.toNat := by
  unfold Char.toUpper
  split
  next h =>
    have hlow : 97 ≤ c.toNat := UInt32.le_iff_toNat_le.1 h.1
    have hhigh : c.toNat ≤ 122 := UInt32.le_iff_toNat_le.1 h.2
    rw [if_pos ⟨hlow, hhigh⟩]
    change (c.val + ('A'.val - 'a'.val)).toNat = c.val.toNat - 32
    change 97 ≤ c.val.toNat at hlow
    change c.val.toNat ≤ 122 at hhigh
    rw [UInt32.toNat_add]
    change (c.val.toNat + 4294967264) % 4294967296 = _
    omega
  next h =>
    rw [if_neg fun hn => h ⟨UInt32.le_iff_toNat_le.2 hn.1, UInt32.le_iff_toNat_le.2 hn.2⟩]

/-- The code of the small letter of a capital. -/
lemma toNat_toLower {c : Char} (h : c.isUpper = true) : c.toLower.toNat = c.toNat + 32 := by
  have hbounds := bounds_of_isUpper h
  have hcapital : c.val ≥ 'A'.val ∧ c.val ≤ 'Z'.val := of_decide_eq_true h
  unfold Char.toLower
  rw [dif_pos hcapital]
  change (c.val + ('a'.val - 'A'.val)).toNat = c.val.toNat + 32
  change 65 ≤ c.val.toNat ∧ c.val.toNat ≤ 90 at hbounds
  rw [UInt32.toNat_add]
  change (c.val.toNat + 32) % 4294967296 = _
  omega

/-- Two characters have the same capital `w` exactly if each is `w` or its small letter. -/
lemma toUpper_eq_iff {w c : Char} (hw : w.isUpper = true) :
    c.toUpper = w ↔ c = w ∨ c = w.toLower := by
  have hbounds := bounds_of_isUpper hw
  rw [← Char.toNat_inj, ← Char.toNat_inj, ← Char.toNat_inj, toNat_toUpper, toNat_toLower hw]
  split <;> omega

/-- A name is a word of capitals in any letter case: each of its characters is that of the word or
the small letter of it. -/
def InAnyCase (word name : String) : Prop :=
  List.Forall₂ (fun w c => c = w ∨ c = w.toLower) word.toList name.toList

/-- A name is a word of capitals in any letter case exactly if it is the word in capitals. -/
lemma map_toUpper_eq_iff {word : String} (hword : word.toList.all Char.isUpper = true)
    (name : String) : name.map Char.toUpper = word ↔ InAnyCase word name := by
  unfold InAnyCase
  rw [← String.toList_inj, String.toList_map]
  generalize word.toList = w at hword
  generalize name.toList = s
  induction w generalizing s with
  | nil => cases s <;> simp
  | cons c w ih =>
    rw [List.all_cons, Bool.and_eq_true] at hword
    cases s with
    | nil => simp
    | cons d s =>
      rw [List.map_cons, List.cons.injEq, List.forall₂_cons, toUpper_eq_iff hword.1, ih hword.2]

end Word

namespace TypeTest

/-- What can be tested for, by its name in capitals. -/
def words : List (String × TypeTest) :=
  [("ANY", .any), ("B", .tag .binary), ("BOOL", .tag .bool), ("S", .tag .string),
    ("N", .tag .number), ("NULL", .tag .null), ("L", .tag .list), ("M", .tag .map),
    ("BS", .tag .binaries), ("NS", .tag .numbers), ("SS", .tag .strings)]

/-- A name is that of a test in any letter case. -/
def Named (name : String) (test : TypeTest) : Prop :=
  ∃ word, (word, test) ∈ words ∧ Word.InAnyCase word name

/-- The words are the texts of the tests. -/
lemma mem_words_iff {word : String} {test : TypeTest} :
    (word, test) ∈ words ↔ word = test.text := by
  have texts : ∀ p ∈ words, p.1 = p.2.text := by decide
  constructor
  · exact texts (word, test)
  · rintro rfl
    cases test with
    | any => decide
    | tag t => cases t <;> decide

/-- The names of types are written in capital letters. -/
lemma isUpper_text (test : TypeTest) : test.text.toList.all Char.isUpper = true := by
  cases test with
  | any => decide
  | tag t => cases t <;> decide

/-- A test is found by its names. -/
lemma ofName?_eq_some_iff {name : String} {test : TypeTest} :
    ofName? name = some test ↔ Named name test := by
  have found : ofName? name = some test ↔ name.map Char.toUpper = test.text := by
    unfold ofName?
    dsimp only
    split
    next h =>
      rw [h, Option.some_inj]
      constructor
      · rintro rfl
        rfl
      · intro htext
        cases test with
        | any => rfl
        | tag t => cases t <;> exact absurd htext (by decide)
    next h =>
      rw [Option.map_eq_some_iff]
      constructor
      · rintro ⟨t, ht, rfl⟩
        exact TypeTag.text_of_ofText? ht
      · intro htext
        cases test with
        | any => exact absurd htext h
        | tag t => exact ⟨t, htext ▸ TypeTag.ofText?_text t, rfl⟩
  rw [found, Word.map_toUpper_eq_iff (isUpper_text test)]
  constructor
  · exact fun h => ⟨test.text, mem_words_iff.2 rfl, h⟩
  · rintro ⟨word, hword, h⟩
    rwa [mem_words_iff.1 hword] at h

end TypeTest

end TableQuery
