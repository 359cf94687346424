import Mathlib.Tactic.Common
import TableQuery.Text.Base64

/-!
# Base64 texts

The texts that write bytes are exactly those that bytes are written as: nothing is skipped, the
padding is complete, and no bit is left over.
-/

namespace TableQuery.Text.Base64

/-- The character that is written for a value has that value. -/
lemma valueOf?_charOf {v : Nat} (hv : v < 64) : valueOf? (charOf v) = some v := by
  have h : ∀ v : Fin 64, valueOf? (charOf v) = some v.val := by decide
  exact h ⟨v, hv⟩

/-- The character that fills up a text has no value. -/
lemma valueOf?_pad : valueOf? '=' = none := by decide

/-- No value is written as the character that fills up a text. -/
lemma charOf_ne_pad {v : Nat} (hv : v < 64) : charOf v ≠ '=' := by
  intro h
  have := valueOf?_charOf hv
  rw [h, valueOf?_pad] at this
  nomatch this

/-- The characters with values are among the first 128. -/
lemma toNat_lt_of_valueOf? {c : Char} {v : Nat} (h : valueOf? c = some v) : c.toNat < 128 := by
  have below : ∀ hi : Char, c ≤ hi → hi.toNat < 128 → c.toNat < 128 := fun hi hle hlt =>
    Nat.lt_of_le_of_lt hle hlt
  unfold valueOf? at h
  split at h
  next hc => exact below 'Z' hc.2 (by decide)
  split at h
  next hc => exact below 'z' hc.2 (by decide)
  split at h
  next hc => exact below '9' hc.2 (by decide)
  split at h
  next hc => rw [hc]; decide
  split at h
  next hc => rw [hc]; decide
  nomatch h

/-- A character with a value is the one that is written for it. -/
lemma eq_charOf {c : Char} {v : Nat} (h : valueOf? c = some v) : v < 64 ∧ c = charOf v := by
  -- the alphabet is small enough to look at each of its characters
  have all : ∀ n : Fin 128, ∀ v ∈ valueOf? (Char.ofNat n), v < 64 ∧ Char.ofNat n = charOf v := by
    decide
  have := all ⟨c.toNat, toNat_lt_of_valueOf? h⟩
  rw [Char.ofNat_toNat] at this
  exact this v h

/-- A number that is that of a byte is turned into the byte. -/
lemma ofNat_eq {n : Nat} {a : UInt8} (h : n = a.toNat) : UInt8.ofNat n = a := by
  rw [h, UInt8.ofNat_toNat]

/-- A number below 256 is that of its byte. -/
lemma toNat_ofNat {n : Nat} (h : n < 256) : (UInt8.ofNat n).toNat = n :=
  UInt8.toNat_ofNat_of_lt' h

/-- What some bytes are written as is read as these bytes. -/
theorem decodeChars?_encodeChars (bytes : List UInt8) :
    decodeChars? (encodeChars bytes) = some bytes := by
  induction bytes using encodeChars.induct with
  | case1 => rfl
  | case2 a =>
    have ha := a.toNat_lt
    have h₁ := valueOf?_charOf (v := a.toNat / 4) (by omega)
    have h₂ := valueOf?_charOf (v := a.toNat % 4 * 16) (by omega)
    have spare : a.toNat % 4 * 16 % 16 = 0 := by omega
    have byte : UInt8.ofNat (a.toNat / 4 * 4 + a.toNat % 4 * 16 / 16) = a := ofNat_eq (by omega)
    rw [encodeChars, decodeChars?]
    simp only [h₁, h₂, Option.bind_eq_bind, Option.bind_some, if_pos spare, byte]
  | case3 a b =>
    have ha := a.toNat_lt
    have hb := b.toNat_lt
    have h₁ := valueOf?_charOf (v := a.toNat / 4) (by omega)
    have h₂ := valueOf?_charOf (v := a.toNat % 4 * 16 + b.toNat / 16) (by omega)
    have h₃ := valueOf?_charOf (v := b.toNat % 16 * 4) (by omega)
    have unpadded := charOf_ne_pad (v := b.toNat % 16 * 4) (by omega)
    have spare : b.toNat % 16 * 4 % 4 = 0 := by omega
    have byte₁ : UInt8.ofNat (a.toNat / 4 * 4 + (a.toNat % 4 * 16 + b.toNat / 16) / 16) = a :=
      ofNat_eq (by omega)
    have byte₂ : UInt8.ofNat
        ((a.toNat % 4 * 16 + b.toNat / 16) % 16 * 16 + b.toNat % 16 * 4 / 4) = b :=
      ofNat_eq (by omega)
    rw [encodeChars, decodeChars?.eq_3 _ _ _ unpadded]
    simp only [h₁, h₂, h₃, Option.bind_eq_bind, Option.bind_some, if_pos spare, byte₁, byte₂]
  | case4 a b c rest ih =>
    have ha := a.toNat_lt
    have hb := b.toNat_lt
    have hc := c.toNat_lt
    have h₁ := valueOf?_charOf (v := a.toNat / 4) (by omega)
    have h₂ := valueOf?_charOf (v := a.toNat % 4 * 16 + b.toNat / 16) (by omega)
    have h₃ := valueOf?_charOf (v := b.toNat % 16 * 4 + c.toNat / 64) (by omega)
    have h₄ := valueOf?_charOf (v := c.toNat % 64) (by omega)
    have unpadded := charOf_ne_pad (v := c.toNat % 64) (by omega)
    have byte₁ : UInt8.ofNat (a.toNat / 4 * 4 + (a.toNat % 4 * 16 + b.toNat / 16) / 16) = a :=
      ofNat_eq (by omega)
    have byte₂ : UInt8.ofNat ((a.toNat % 4 * 16 + b.toNat / 16) % 16 * 16
        + (b.toNat % 16 * 4 + c.toNat / 64) / 4) = b :=
      ofNat_eq (by omega)
    have byte₃ : UInt8.ofNat
        ((b.toNat % 16 * 4 + c.toNat / 64) % 4 * 64 + c.toNat % 64) = c :=
      ofNat_eq (by omega)
    rw [encodeChars, decodeChars?.eq_4 _ _ _ _ _ (fun _ h _ => unpadded h) (fun h _ => unpadded h)]
    simp only [h₁, h₂, h₃, h₄, ih, Option.bind_eq_bind, Option.bind_some, byte₁, byte₂, byte₃]

/-- The characters that write some bytes are those that the bytes are written as. -/
theorem eq_encodeChars {cs : List Char} {bytes : List UInt8}
    (h : decodeChars? cs = some bytes) : cs = encodeChars bytes := by
  induction cs using decodeChars?.induct generalizing bytes with
  | case1 =>
    cases h
    rfl
  | case2 c d =>
    rw [decodeChars?] at h
    simp only [Option.bind_eq_bind, Option.bind_eq_some_iff, Option.ite_none_right_eq_some,
      Option.some.injEq] at h
    obtain ⟨v, hv, w, hw, spare, rfl⟩ := h
    obtain ⟨hv, rfl⟩ := eq_charOf hv
    obtain ⟨hw, rfl⟩ := eq_charOf hw
    have byte : (UInt8.ofNat (v * 4 + w / 16)).toNat = v * 4 + w / 16 :=
      toNat_ofNat (by omega)
    rw [encodeChars, byte, show (v * 4 + w / 16) / 4 = v by omega,
      show (v * 4 + w / 16) % 4 * 16 = w by omega]
  | case3 c d e unpadded =>
    rw [decodeChars?.eq_3 _ _ _ unpadded] at h
    simp only [Option.bind_eq_bind, Option.bind_eq_some_iff, Option.ite_none_right_eq_some,
      Option.some.injEq] at h
    obtain ⟨v, hv, w, hw, x, hx, spare, rfl⟩ := h
    obtain ⟨hv, rfl⟩ := eq_charOf hv
    obtain ⟨hw, rfl⟩ := eq_charOf hw
    obtain ⟨hx, rfl⟩ := eq_charOf hx
    have byte₁ : (UInt8.ofNat (v * 4 + w / 16)).toNat = v * 4 + w / 16 :=
      toNat_ofNat (by omega)
    have byte₂ : (UInt8.ofNat (w % 16 * 16 + x / 4)).toNat = w % 16 * 16 + x / 4 :=
      toNat_ofNat (by omega)
    rw [encodeChars, byte₁, byte₂, show (v * 4 + w / 16) / 4 = v by omega,
      show (v * 4 + w / 16) % 4 * 16 + (w % 16 * 16 + x / 4) / 16 = w by omega,
      show (w % 16 * 16 + x / 4) % 16 * 4 = x by omega]
  | case4 c d e f rest padded padded' ih =>
    rw [decodeChars?.eq_4 _ _ _ _ _ padded padded'] at h
    simp only [Option.bind_eq_bind, Option.bind_eq_some_iff, Option.some.injEq] at h
    obtain ⟨v, hv, w, hw, x, hx, y, hy, bytes, hbytes, rfl⟩ := h
    obtain ⟨hv, rfl⟩ := eq_charOf hv
    obtain ⟨hw, rfl⟩ := eq_charOf hw
    obtain ⟨hx, rfl⟩ := eq_charOf hx
    obtain ⟨hy, rfl⟩ := eq_charOf hy
    have byte₁ : (UInt8.ofNat (v * 4 + w / 16)).toNat = v * 4 + w / 16 :=
      toNat_ofNat (by omega)
    have byte₂ : (UInt8.ofNat (w % 16 * 16 + x / 4)).toNat = w % 16 * 16 + x / 4 :=
      toNat_ofNat (by omega)
    have byte₃ : (UInt8.ofNat (x % 4 * 64 + y)).toNat = x % 4 * 64 + y :=
      toNat_ofNat (by omega)
    rw [encodeChars, byte₁, byte₂, byte₃, ← ih hbytes, show (v * 4 + w / 16) / 4 = v by omega,
      show (v * 4 + w / 16) % 4 * 16 + (w % 16 * 16 + x / 4) / 16 = w by omega,
      show (w % 16 * 16 + x / 4) % 16 * 4 + (x % 4 * 64 + y) / 64 = x by omega,
      show (x % 4 * 64 + y) % 64 = y by omega]
  | case5 cs empty two three four =>
    rw [decodeChars?.eq_5 cs empty two three four] at h
    nomatch h

/-- A text writes some bytes exactly if it is what they are written as. -/
theorem decode?_eq_some_iff {text : String} {bytes : List UInt8} :
    decode? text = some bytes ↔ text = encode bytes := by
  constructor
  · intro h
    rw [encode, ← eq_encodeChars h, String.ofList_toList]
  · rintro rfl
    rw [decode?, encode, String.toList_ofList, decodeChars?_encodeChars]

end TableQuery.Text.Base64
