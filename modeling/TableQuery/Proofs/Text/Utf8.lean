import Mathlib.Data.String.Basic
import Mathlib.Order.Monotone.Basic

/-!
# The order of texts is that of their bytes

A text is ordered by its characters. UTF-8 keeps that order: the codes of two characters part at a
byte that is smaller for the smaller character, and neither code begins with the other.
-/

namespace TableQuery.Text

/-- The bytes of a text in UTF-8, as numbers. -/
def bytes (s : String) : List ℕ :=
  s.toUTF8.data.toList.map UInt8.toNat

/-- The bytes of a character. -/
def code (c : Char) : List ℕ :=
  (String.utf8EncodeChar c).map UInt8.toNat

/-- The bytes of a text are those of its characters, one after the other. -/
lemma bytes_eq (s : String) : bytes s = s.toList.flatMap code := by
  conv_lhs => rw [← String.ofList_toList (s := s)]
  rw [bytes, String.toUTF8_eq_toByteArray, String.toByteArray_ofList, List.utf8Encode,
    List.toList_data_toByteArray, List.map_flatMap]
  rfl

/-- Two lists have a first place where they differ, and the first of them is smaller there. -/
def PartsBelow : List ℕ → List ℕ → Prop
  | x :: xs, y :: ys => x < y ∨ x = y ∧ PartsBelow xs ys
  | _, _ => False

/-- Lists that part are ordered whatever follows them. -/
lemma PartsBelow.append_lt : ∀ {xs ys : List ℕ}, PartsBelow xs ys → ∀ us vs, xs ++ us < ys ++ vs
  | x :: xs, y :: ys, h, us, vs => by
    rw [List.cons_append, List.cons_append, List.cons_lt_cons_iff]
    rcases h with h | ⟨rfl, h⟩
    · exact .inl h
    · exact .inr ⟨rfl, h.append_lt us vs⟩

/-- The bytes of a smaller character are smaller at the first place where they differ. -/
lemma partsBelow_code {c d : Char} (h : c < d) : PartsBelow (code c) (code d) := by
  have hval : c.val.toNat < d.val.toNat := h
  have hmax : d.val.toNat < 0x110000 := by
    rcases d.valid with hd | ⟨-, hd⟩
    · exact hd.trans (by decide)
    · exact hd
  -- each byte but the first carries the next six bits of the character
  have hdigits (n : ℕ) : n / 4096 = n / 64 / 64 ∧ n / 262144 = n / 64 / 64 / 64 := by omega
  unfold code String.utf8EncodeChar
  generalize c.val.toNat = m at *
  generalize d.val.toNat = n at *
  have byte {k : ℕ} (hk : k < 256) : (UInt8.ofNat k).toNat = k := UInt8.toNat_ofNat_of_lt' hk
  simp only [hdigits]
  split_ifs <;>
    simp (disch := omega) only [List.map_cons, List.map_nil, byte, PartsBelow] <;> omega

/-- Every character has a byte. -/
lemma code_ne_nil (c : Char) : code c ≠ [] := by
  unfold code String.utf8EncodeChar
  dsimp only
  split_ifs <;> exact List.cons_ne_nil _ _

/-- Texts have the order of their bytes. -/
lemma flatMap_code_lt : ∀ {cs ds : List Char}, cs < ds → cs.flatMap code < ds.flatMap code
  | [], d :: ds, _ => by
    obtain ⟨x, xs, hd⟩ := List.exists_cons_of_ne_nil (code_ne_nil d)
    rw [List.flatMap_nil, List.flatMap_cons, hd]
    exact List.nil_lt_cons _ _
  | c :: cs, d :: ds, h => by
    rw [List.flatMap_cons, List.flatMap_cons]
    rcases List.cons_lt_cons_iff.1 h with hhead | ⟨rfl, htail⟩
    · exact (partsBelow_code hhead).append_lt _ _
    · exact List.append_left_lt (flatMap_code_lt htail)

/-- A text comes before another exactly if its bytes do. -/
lemma strictMono_bytes : StrictMono bytes := by
  intro s t h
  rw [bytes_eq, bytes_eq]
  exact flatMap_code_lt (String.lt_iff_toList_lt.1 h)

end TableQuery.Text
