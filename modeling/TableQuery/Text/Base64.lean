import TableQuery.Text.Digits

/-!
# Base64

Bytes as text: three bytes are four characters of the standard alphabet, the last group is padded,
and the bits that padding leaves over are zero.
-/

namespace TableQuery.Text.Base64

/-- The character of a six-bit value. -/
def charOf (v : Nat) : Char :=
  if v < 26 then Char.ofNat ('A'.toNat + v)
  else if v < 52 then Char.ofNat ('a'.toNat + (v - 26))
  else if v < 62 then Char.ofNat ('0'.toNat + (v - 52))
  else if v = 62 then '+'
  else '/'

/-- The six-bit value of a character of the alphabet. -/
def valueOf? (c : Char) : Option Nat :=
  if 'A' ≤ c ∧ c ≤ 'Z' then some (c.toNat - 'A'.toNat)
  else if 'a' ≤ c ∧ c ≤ 'z' then some (c.toNat - 'a'.toNat + 26)
  else if '0' ≤ c ∧ c ≤ '9' then some (c.toNat - '0'.toNat + 52)
  else if c = '+' then some 62
  else if c = '/' then some 63
  else none

/-- The characters that write some bytes. -/
def encodeChars : List UInt8 → List Char
  | [] => []
  | [a] => [charOf (a.toNat / 4), charOf (a.toNat % 4 * 16), '=', '=']
  | [a, b] =>
    [charOf (a.toNat / 4), charOf (a.toNat % 4 * 16 + b.toNat / 16), charOf (b.toNat % 16 * 4), '=']
  | a :: b :: c :: rest =>
    charOf (a.toNat / 4) :: charOf (a.toNat % 4 * 16 + b.toNat / 16)
      :: charOf (b.toNat % 16 * 4 + c.toNat / 64) :: charOf (c.toNat % 64) :: encodeChars rest

/-- The bytes that some characters write; nothing is skipped and no bit is dropped. -/
def decodeChars? : List Char → Option (List UInt8)
  | [] => some []
  | [c, d, '=', '='] => do
    let v ← valueOf? c
    let w ← valueOf? d
    if w % 16 = 0 then some [UInt8.ofNat (v * 4 + w / 16)] else none
  | [c, d, e, '='] => do
    let v ← valueOf? c
    let w ← valueOf? d
    let x ← valueOf? e
    if x % 4 = 0 then
      some [UInt8.ofNat (v * 4 + w / 16), UInt8.ofNat (w % 16 * 16 + x / 4)]
    else none
  | c :: d :: e :: f :: rest => do
    let v ← valueOf? c
    let w ← valueOf? d
    let x ← valueOf? e
    let y ← valueOf? f
    let bytes ← decodeChars? rest
    some (UInt8.ofNat (v * 4 + w / 16) :: UInt8.ofNat (w % 16 * 16 + x / 4)
      :: UInt8.ofNat (x % 4 * 64 + y) :: bytes)
  | _ => none

/-- The text that writes some bytes. -/
def encode (bytes : List UInt8) : String :=
  String.ofList (encodeChars bytes)

/-- The bytes that a text writes. -/
def decode? (text : String) : Option (List UInt8) :=
  decodeChars? text.toList

/-- Why a text writes no bytes. -/
inductive Flaw where
  /-- the byte at an offset may not stand there -/
  | symbol (offset : Nat) (byte : UInt8)
  /-- the symbols are one more than full groups have -/
  | length (symbols : Nat)
  /-- the last group is not padded -/
  | padding
  /-- the last symbol, at an offset, has bits that belong to no byte -/
  | lastSymbol (offset : Nat) (byte : UInt8)
  deriving Repr, DecidableEq

/-- The message of a flaw. -/
def Flaw.message : Flaw → String
  | .symbol offset byte =>
    "Invalid symbol " ++ natText byte.toNat ++ ", offset " ++ natText offset ++ "."
  | .length symbols => "Invalid input length: " ++ natText symbols
  | .padding => "Invalid padding"
  | .lastSymbol offset byte =>
    "Invalid last symbol " ++ natText byte.toNat ++ ", offset " ++ natText offset ++ "."

/-- The byte that pads a group. -/
def padByte : UInt8 := '='.toUInt8

/-- The flaw of the first byte that is not in the alphabet; the offsets begin at `start`. -/
def foreignByte? (start : Nat) (bytes : List UInt8) : Option Flaw :=
  ((bytes.zipIdx start).find? fun (byte, _) => (valueOf? (Char.ofNat byte.toNat)).isNone).map
    fun (byte, offset) => .symbol offset byte

/-- The flaw of the last group of a text, which begins at `start`, if the groups before it have
none. -/
def lastGroupFlaw (start : Nat) (group : List UInt8) : Flaw :=
  let symbols := group.takeWhile (· ≠ padByte)
  let padding := group.dropWhile (· ≠ padByte)
  let stop := start + symbols.length
  (foreignByte? start symbols).getD
    (if padding ≠ [] ∧ (symbols.length < 2 ∨ padding.any (· ≠ padByte)) then .symbol stop padByte
    else if symbols.length < 2 then .length stop
    else if group.length < 4 then .padding
    else .lastSymbol (stop - 1) (symbols.getLastD padByte))

/-- The flaw of a text that writes no bytes. A byte that is alone in the last group comes first if
it is neither in the alphabet nor padding; else the first flaw counts. -/
def flaw (text : String) : Flaw :=
  let bytes := text.toUTF8.data.toList
  let start := 4 * ((bytes.length - 1) / 4)
  let group := bytes.drop start
  let alone := if group.length = 1 ∧ group ≠ [padByte] then foreignByte? start group else none
  (alone.or (foreignByte? 0 (bytes.take start))).getD (lastGroupFlaw start group)

end TableQuery.Text.Base64
