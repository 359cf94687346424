import TableQuery.Json.Basic

/-!
# Reading JSON

A text is read from the left into a tree. Nothing is read after the place where the text stops
being JSON, and the tree marks that place.
-/

namespace TableQuery.Json

/-- A blank of JSON. -/
def isBlank (c : Char) : Bool :=
  c == ' ' || c == '\n' || c == '\r' || c == '\t'

/-- The text without the blanks in front of it. -/
def skip (s : List Char) : List Char :=
  s.dropWhile isBlank

/-- Skipping blanks leaves no more than there was. -/
theorem length_skip (s : List Char) : (skip s).length ≤ s.length :=
  (List.dropWhile_suffix isBlank).length_le

/-- The text after a part of fewer than `bound` characters, if the part is whole. -/
abbrev Rest (bound : Nat) := Option { r : List Char // r.length < bound }

/-- A rest, seen from further left. -/
def Rest.weaken {a b : Nat} (h : a ≤ b) (rest : Rest a) : Rest b :=
  rest.map fun r => ⟨r.1, Nat.lt_of_lt_of_le r.2 h⟩

/-- The value of a hexadecimal digit. -/
def hexValue? (c : Char) : Option Nat :=
  if c.isDigit then some (c.toNat - '0'.toNat)
  else if 'a' ≤ c ∧ c ≤ 'f' then some (c.toNat - 'a'.toNat + 10)
  else if 'A' ≤ c ∧ c ≤ 'F' then some (c.toNat - 'A'.toNat + 10)
  else none

/-- The value of the four hexadecimal digits at the front of a text, and what follows them. -/
def hexUnit? : List Char → Option (Nat × List Char)
  | a :: b :: c :: d :: r => do
    let a ← hexValue? a
    let b ← hexValue? b
    let c ← hexValue? c
    let d ← hexValue? d
    return (((a * 16 + b) * 16 + c) * 16 + d, r)
  | _ => none

/-- The character of a letter after a backslash. -/
def simpleEscape? (c : Char) : Option Char :=
  match c with
  | '"' => some '"'
  | '\\' => some '\\'
  | '/' => some '/'
  | 'b' => some '\x08'
  | 'f' => some '\x0c'
  | 'n' => some '\n'
  | 'r' => some '\r'
  | 't' => some '\t'
  | _ => none

/-- The value of a hexadecimal escape, and what follows it. -/
def escapedUnit? : List Char → Option (Nat × List Char)
  | '\\' :: 'u' :: r => hexUnit? r
  | _ => none

/-- The character that two units write, the first of which begins one beyond the first plane. -/
def pairedChar? (high low : Nat) : Option Char :=
  if 0xD800 ≤ high ∧ high < 0xDC00 ∧ 0xDC00 ≤ low ∧ low ≤ 0xDFFF then
    some (Char.ofNat (0x10000 + (high - 0xD800) * 0x400 + (low - 0xDC00)))
  else none

/-- The character that a hexadecimal escape writes after its `u`, if it writes one, and what
follows; one beyond the first plane takes two escapes. -/
def hexChar? (s : List Char) : Option (Option Char × List Char) := do
  let (unit, r) ← hexUnit? s
  if unit < 0xD800 ∨ 0xDFFF < unit then return (some (Char.ofNat unit), r)
  else
    match escapedUnit? r with
    | none => return (none, r)
    | some (low, r') =>
      match pairedChar? unit low with
      | none => return (none, r)
      | some c => return (some c, r')

/-- The character at the front of the rest of a string, if an escape there writes one, and what
follows it. -/
def stringChar? : List Char → Option (Option Char × List Char)
  | '\\' :: 'u' :: r => hexChar? r
  | '\\' :: c :: r => (simpleEscape? c).map fun d => (some d, r)
  | c :: r => if c < ' ' ∨ c = '\\' then none else some (some c, r)
  | [] => none

/-- A unit of four hexadecimal digits takes characters. -/
theorem length_hexUnit {s r : List Char} {n : Nat} (h : hexUnit? s = some (n, r)) :
    r.length < s.length := by
  unfold hexUnit? at h
  split at h
  · simp only [Option.bind_eq_bind, Option.bind_eq_some_iff, pure, Option.some.injEq,
      Prod.mk.injEq] at h
    obtain ⟨_, _, _, _, _, _, _, _, _, rfl⟩ := h
    simp only [List.length_cons]
    omega
  · cases h

/-- An escaped unit takes characters. -/
theorem length_escapedUnit {s r : List Char} {n : Nat} (h : escapedUnit? s = some (n, r)) :
    r.length < s.length := by
  unfold escapedUnit? at h
  split at h
  · have := length_hexUnit h
    simp only [List.length_cons]
    omega
  · cases h

/-- A character that is written as one or two units takes characters. -/
theorem length_hexChar {s r : List Char} {c : Option Char} (h : hexChar? s = some (c, r)) :
    r.length < s.length := by
  simp only [hexChar?, Option.bind_eq_bind, Option.bind_eq_some_iff] at h
  obtain ⟨⟨unit, r₁⟩, h₁, h⟩ := h
  have shorter := length_hexUnit h₁
  split at h
  · cases h
    exact shorter
  · split at h
    · cases h
      exact shorter
    · rename_i h₂
      split at h
      · cases h
        exact shorter
      · cases h
        exact Nat.lt_trans (length_escapedUnit h₂) shorter

/-- A character of a string takes at least one character of the text. -/
theorem length_stringChar {s r : List Char} {c : Option Char} (h : stringChar? s = some (c, r)) :
    r.length < s.length := by
  unfold stringChar? at h
  split at h
  · have := length_hexChar h
    simp only [List.length_cons]
    omega
  · simp only [Option.map_eq_some_iff, Prod.mk.injEq] at h
    obtain ⟨_, _, _, rfl⟩ := h
    simp only [List.length_cons]
    omega
  · split at h
    · cases h
    · simp only [Option.some.injEq, Prod.mk.injEq] at h
      simp [h.2]
  · cases h

/-- The characters of a string after its opening quote, if all of them are there, and the text after
its closing quote. -/
def stringRest (s : List Char) : Option (Option (List Char) × List Char) :=
  match s with
  | '"' :: r => some (some [], r)
  | s =>
    match _char : stringChar? s with
    | none => none
    | some (c, r) =>
      (stringRest r).map fun (text, rest) => (c.bind fun c => text.map (c :: ·), rest)
termination_by s.length
decreasing_by exact length_stringChar _char

/-- The rest of a string takes characters, at least its closing quote. -/
theorem length_stringRest {s rest : List Char} {text : Option (List Char)}
    (h : stringRest s = some (text, rest)) :
    rest.length < s.length := by
  fun_induction stringRest s generalizing text rest with
  | case1 r =>
    cases h
    simp
  | case2 => cases h
  | case3 s _ c r hc ih =>
    simp only [Option.map_eq_some_iff, Prod.mk.injEq] at h
    obtain ⟨⟨text, rest⟩, hr, rfl, rfl⟩ := h
    exact Nat.lt_trans (ih hr) (length_stringChar hc)

/-- The text of a string after its opening quote, if it writes one, and what follows it. -/
def text? (s : List Char) : Option (Option String × { r : List Char // r.length < s.length }) :=
  match _read : stringRest s with
  | none => none
  | some (text, rest) => some (text.map String.ofList, ⟨rest, length_stringRest _read⟩)

/-- The whole digits at the front of a number: a zero stands alone. -/
def wholeDigits? (s : List Char) : Option (List Char × List Char) :=
  match s.takeWhile Char.isDigit with
  | [] => none
  | '0' :: _ :: _ => none
  | digits => some (digits, s.dropWhile Char.isDigit)

/-- The digits after the point of a number, if it has one. -/
def fraction? (s : List Char) : Option (List Char × List Char) :=
  match s with
  | '.' :: r =>
    match r.takeWhile Char.isDigit with
    | [] => none
    | digits => some ('.' :: digits, r.dropWhile Char.isDigit)
  | _ => some ([], s)

/-- The exponent of a number, if it has one. -/
def exponent? (s : List Char) : Option (List Char × List Char) :=
  match s with
  | e :: r =>
    if e == 'e' || e == 'E' then
      let (sign, r) := match r with
        | '+' :: r => (['+'], r)
        | '-' :: r => (['-'], r)
        | r => ([], r)
      match r.takeWhile Char.isDigit with
      | [] => none
      | digits => some (e :: sign ++ digits, r.dropWhile Char.isDigit)
    else some ([], s)
  | [] => some ([], s)

/-- The number at the front of a text, as it is written, and what follows it. -/
def number? (s : List Char) : Option (List Char × List Char) := do
  let (sign, s) := match s with
    | '-' :: r => (['-'], r)
    | s => ([], s)
  let (whole, s) ← wholeDigits? s
  let (fraction, s) ← fraction? s
  let (exponent, s) ← exponent? s
  return (sign ++ whole ++ fraction ++ exponent, s)

/-- The digits in front of a point take characters. -/
theorem length_wholeDigits {s digits rest : List Char} (h : wholeDigits? s = some (digits, rest)) :
    rest.length < s.length := by
  cases s with
  | nil => simp [wholeDigits?] at h
  | cons c r =>
    have hd := (List.dropWhile_suffix Char.isDigit (l := r)).length_le
    unfold wholeDigits? at h
    split at h
    · cases h
    · cases h
    · rename_i nonempty _
      cases h
      by_cases hc : c.isDigit = true
      · simp only [List.dropWhile_cons, hc, if_true, List.length_cons]
        omega
      · simp [hc] at nonempty

/-- A fraction, which may be missing, leaves no more than there was. -/
theorem length_fraction {s digits rest : List Char} (h : fraction? s = some (digits, rest)) :
    rest.length ≤ s.length := by
  unfold fraction? at h
  split at h
  · rename_i r
    have hd := (List.dropWhile_suffix Char.isDigit (l := r)).length_le
    split at h
    · cases h
    · simp only [Option.some.injEq, Prod.mk.injEq] at h
      rw [← h.2]
      simp only [List.length_cons]
      omega
  · simp only [Option.some.injEq, Prod.mk.injEq] at h
    exact Nat.le_of_eq (congrArg List.length h.2.symm)

/-- An exponent, which may be missing, leaves no more than there was. -/
theorem length_exponent {s digits rest : List Char} (h : exponent? s = some (digits, rest)) :
    rest.length ≤ s.length := by
  unfold exponent? at h
  have hd (r : List Char) := (List.dropWhile_suffix Char.isDigit (l := r)).length_le
  grind

/-- A number takes at least one digit. -/
theorem length_number {s digits rest : List Char} (h : number? s = some (digits, rest)) :
    rest.length < s.length := by
  simp only [number?, Option.bind_eq_bind, Option.bind_eq_some_iff] at h
  obtain ⟨⟨whole, r₁⟩, h₁, ⟨fraction, r₂⟩, h₂, ⟨exponent, r₃⟩, h₃, h⟩ := h
  simp only [pure, Option.some.injEq, Prod.mk.injEq] at h
  have := length_wholeDigits h₁
  have := length_fraction h₂
  have := length_exponent h₃
  rw [← h.2]
  split at * <;> simp only [List.length_cons] at * <;> omega

/-- The members of an object with one more in front; behind a name that writes no text, it only
matters whether the object ends. -/
def withMember {bound : Nat} (key : Option String) (j : Json) :
    List (String × Json) × Ending × Rest bound → List (String × Json) × Ending × Rest bound
  | (more, ending, rest) =>
    match key with
    | some key => ((key, j) :: more, ending, rest)
    | none => ([], if ending = .cut then .cut else .unnamed, rest)

mutual

/-- The value at the front of a text, and what follows it. -/
def value (s : List Char) : Json × Rest s.length :=
  match _skipped : skip s with
  | '[' :: r =>
    match _first : skip r with
    | ']' :: rest => (.array [] .closed, some ⟨rest, by
        have := length_skip s; have := length_skip r
        simp_all only [List.length_cons]; omega⟩)
    | _ =>
      let (elements, ending, rest) := elements r
      (.array elements ending, rest.weaken (by
        have := length_skip s; simp_all only [List.length_cons]; omega))
  | '\x7b' :: r =>
    match _first : skip r with
    | '\x7d' :: rest => (.object [] .closed, some ⟨rest, by
        have := length_skip s; have := length_skip r
        simp_all only [List.length_cons]; omega⟩)
    | '"' :: _ =>
      let (members, ending, rest) := members r
      (.object members ending, rest.weaken (by
        have := length_skip s; simp_all only [List.length_cons]; omega))
    | _ => (.misnamed (value r).1, none)
  | '"' :: r =>
    match text? r with
    | some (text, rest) => (text.elim .garbled .string, some ⟨rest.1, by
        have := length_skip s; have := rest.2; simp_all only [List.length_cons]; omega⟩)
    | none => (.cut, none)
  | 't' :: 'r' :: 'u' :: 'e' :: r => (.bool true, some ⟨r, by
      have := length_skip s; simp_all only [List.length_cons]; omega⟩)
  | 'f' :: 'a' :: 'l' :: 's' :: 'e' :: r => (.bool false, some ⟨r, by
      have := length_skip s; simp_all only [List.length_cons]; omega⟩)
  | 'n' :: 'u' :: 'l' :: 'l' :: r => (.null, some ⟨r, by
      have := length_skip s; simp_all only [List.length_cons]; omega⟩)
  | r =>
    match _number : number? r with
    | some (numeral, rest) => (.number (String.ofList numeral), some ⟨rest, by
        have := length_skip s; have := length_number _number
        simp_all only; omega⟩)
    | none => (.cut, none)
termination_by (2 * s.length)
decreasing_by
  all_goals have := length_skip s; simp_all only [List.length_cons]; omega

/-- The elements of an array from the next one on, how it ends, and what follows it. -/
def elements (s : List Char) : List Json × Ending × Rest s.length :=
  match value s with
  | (j, none) => ([j], .cut, none)
  | (j, some ⟨afterValue, _⟩) =>
    match _skipped : skip afterValue with
    | ',' :: r =>
      let (more, ending, rest) := elements r
      (j :: more, ending, rest.weaken (by
        have := length_skip afterValue; simp_all only [List.length_cons]; omega))
    | ']' :: r => ([j], .closed, some ⟨r, by
        have := length_skip afterValue; simp_all only [List.length_cons]; omega⟩)
    | _ => ([j], .cut, none)
termination_by (2 * s.length + 1)
decreasing_by
  · omega
  · have := length_skip afterValue; simp_all only [List.length_cons]; omega

/-- The members of an object from the next one on, how it ends, and what follows it. -/
def members (s : List Char) : List (String × Json) × Ending × Rest s.length :=
  match _quote : skip s with
  | '"' :: r =>
    match text? r with
    | none => ([], .cut, none)
    | some (key, ⟨afterKey, _⟩) =>
      match _colon : skip afterKey with
      | ':' :: r' =>
        match value r' with
        | (j, none) => withMember key j ([], .cut, none)
        | (j, some ⟨afterValue, _⟩) =>
          match _skipped : skip afterValue with
          | ',' :: r'' =>
            let (more, ending, rest) := members r''
            withMember key j (more, ending, rest.weaken (by
              have := length_skip s; have := length_skip afterKey; have := length_skip afterValue
              simp_all only [List.length_cons]; omega))
          | '\x7d' :: r'' => withMember key j ([], .closed, some ⟨r'', by
              have := length_skip s; have := length_skip afterKey; have := length_skip afterValue
              simp_all only [List.length_cons]; omega⟩)
          | _ => withMember key j ([], .cut, none)
      | _ => withMember key .cut ([], .cut, none)
  | _ => ([], .cut, none)
termination_by (2 * s.length + 1)
decreasing_by
  · have := length_skip s; have := length_skip afterKey
    simp_all only [List.length_cons]; omega
  · have := length_skip s; have := length_skip afterKey; have := length_skip afterValue
    simp_all only [List.length_cons]; omega

end

/-- The value of a whole text, and whether nothing but blanks follows it. -/
def read (text : String) : Json × Bool :=
  match value text.toList with
  | (j, none) => (j, false)
  | (j, some rest) => (j, (skip rest.1).isEmpty)

end TableQuery.Json
