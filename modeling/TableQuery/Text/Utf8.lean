/-!
# UTF-8

Text from bytes, with the place where the bytes stop being text.
-/

namespace TableQuery.Text.Utf8

/-- A byte that continues a character. -/
def isContinuation (b : UInt8) : Bool :=
  0x80 ≤ b && b ≤ 0xBF

/-- The six bits that a continuation byte carries. -/
def payload (b : UInt8) : Nat :=
  b.toNat % 64

/-- The character at the front of some bytes in its shortest form, and the bytes after it. -/
def char? : List UInt8 → Option (Char × List UInt8)
  | [] => none
  | a :: r =>
    if a < 0x80 then some (Char.ofNat a.toNat, r)
    else if 0xC2 ≤ a ∧ a ≤ 0xDF then
      match r with
      | b :: r =>
        if isContinuation b then some (Char.ofNat (a.toNat % 32 * 64 + payload b), r) else none
      | _ => none
    else if 0xE0 ≤ a ∧ a ≤ 0xEF then
      match r with
      | b :: c :: r =>
        let low : UInt8 := if a = 0xE0 then 0xA0 else 0x80
        let high : UInt8 := if a = 0xED then 0x9F else 0xBF
        if low ≤ b ∧ b ≤ high ∧ isContinuation c then
          some (Char.ofNat (a.toNat % 16 * 4096 + payload b * 64 + payload c), r)
        else none
      | _ => none
    else if 0xF0 ≤ a ∧ a ≤ 0xF4 then
      match r with
      | b :: c :: d :: r =>
        let low : UInt8 := if a = 0xF0 then 0x90 else 0x80
        let high : UInt8 := if a = 0xF4 then 0x8F else 0xBF
        if low ≤ b ∧ b ≤ high ∧ isContinuation c ∧ isContinuation d then
          let front := a.toNat % 8 * 262144 + payload b * 4096
          some (Char.ofNat (front + payload c * 64 + payload d), r)
        else none
      | _ => none
    else none

/-- A character takes at least one byte. -/
theorem length_rest_of_char? {bytes rest : List UInt8} {c : Char}
    (h : char? bytes = some (c, rest)) : rest.length < bytes.length := by
  unfold char? at h
  grind

/-- Reads characters to the end of the bytes, or to the offset at which no character stands. -/
def decodeFrom (offset : Nat) (bytes : List UInt8) : Except Nat (List Char) :=
  if bytes.isEmpty then .ok []
  else
    match _taken : char? bytes with
    | none => .error offset
    | some (c, rest) =>
      (decodeFrom (offset + (bytes.length - rest.length)) rest).map (c :: ·)
termination_by bytes.length
decreasing_by exact length_rest_of_char? _taken

/-- The text that the bytes write, or the offset of the first byte that is not part of a text. -/
def decode (bytes : List UInt8) : Except Nat String :=
  (decodeFrom 0 bytes).map String.ofList

end TableQuery.Text.Utf8
