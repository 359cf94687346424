import TableQuery.Proofs.Decimal.RoundTrip
import TableQuery.Proofs.Except
import TableQuery.Proofs.Value.Order
import TableQuery.Value.Basic

/-!
# The order of stored values

A stored value stands to the stored form of a number or of a string as its value stands to them, and
has no order if it has no value.
-/

namespace TableQuery

/-- A whole number is written the same as a decimal. -/
lemma Decimal.text_ofInt (n : Int) : (ofInt n).text = Text.intText n := by
  by_cases hz : n = 0
  · subst hz
    decide
  · have hne : ¬ (ofInt n).coefficient = 0 := hz
    unfold Decimal.text Text.intText
    rw [if_neg hne]
    change String.ofList ((if n < 0 then ['-'] else [])
      ++ unsignedText (Text.digits n.natAbs) (0 : Int64).toInt) = _
    rw [Int64.toInt_zero, unsignedText_zero]
    split <;> rfl

namespace Value

/-- A number is written as its decimal. -/
lemma text_of_decimal? {v : Value} {x : Decimal} (h : v.decimal? = some x) : v.text = x.text := by
  cases v with
  | int n =>
    cases h
    rw [text, Decimal.text_ofInt]
  | decimal d =>
    cases h
    rw [text]
  | _ => cases h

/-- A number is stored as the text of its decimal. -/
lemma toStored_of_decimal? {v : Value} {x : Decimal} (h : v.decimal? = some x) :
    v.toStored = .number x.text := by
  rw [← text_of_decimal? h]
  cases v with
  | int _ | decimal _ => rw [toStored, text]
  | _ => cases h

/-- A number or a string, which keys can be compared with. -/
def IsScalar (v : Value) : Prop :=
  (∃ x, v.decimal? = some x) ∨ ∃ s, v = .string s

/-- A stored value and its value are the same number or the same string, if they are one. -/
lemma scalar_of_ofStored {a : Stored} {w : Value} (h : ofStored a = .ok w) :
    w.decimal? = a.decimal? ∧ w.string? = a.string? := by
  cases a with
  | number n =>
    rw [ofStored] at h
    split at h
    next d hd =>
      cases h
      exact ⟨hd.symm, rfl⟩
    next => cases h
  | null flag =>
    rw [ofStored] at h
    split at h <;> cases h
    exact ⟨rfl, rfl⟩
  | list xs =>
    obtain ⟨_, _, rfl⟩ := map_eq_ok_iff.1 h
    exact ⟨rfl, rfl⟩
  | map fields =>
    obtain ⟨_, _, rfl⟩ := map_eq_ok_iff.1 h
    exact ⟨rfl, rfl⟩
  | _ =>
    cases h
    exact ⟨rfl, rfl⟩

/-- A stored value that has no value is neither a number nor a string. -/
lemma scalar_of_ofStored_error {a : Stored} {cause : ConversionError}
    (h : ofStored a = .error cause) : a.decimal? = none ∧ a.string? = none := by
  cases a with
  | number n =>
    rw [ofStored] at h
    split at h
    next => cases h
    next hn => exact ⟨hn, rfl⟩
  | string s => cases h
  | _ => exact ⟨rfl, rfl⟩

/-- Only numbers have an order with a number, and only strings with a string. -/
lemma compareScalar?_of_scalar {a : Stored} {w v : Value}
    (ha : w.decimal? = a.decimal? ∧ w.string? = a.string?) (hv : v.IsScalar) :
    a.compareScalar? v.toStored = w.order? v := by
  unfold order?
  rw [ha.1, ha.2]
  -- the stored form of a number is its text, which is read back as the same number
  rcases hv with ⟨y, hy⟩ | ⟨t, rfl⟩
  · obtain ⟨z, hz, hvalue, -⟩ := Decimal.ofText?_text y
    have hs : v.string? = none := by
      cases v with
      | int | decimal => rfl
      | _ => cases hy
    rw [toStored_of_decimal? hy, hy, hs]
    cases a with
    | number n =>
      rw [Stored.compareScalar?, hz, Stored.decimal?, Stored.numeral?, Option.bind_some]
      cases Decimal.ofText? n with
      | none => rfl
      | some x =>
        change some (x.compare z) = some (x.compare y)
        rw [Decimal.compare_eq, Decimal.compare_eq, hvalue]
    | _ => rfl
  · cases a with
    | number n => cases h : (Stored.number n).decimal? <;> rfl
    | _ => rfl

/-- A stored value stands to a scalar as its value does. -/
lemma compareScalar?_eq_order? {a : Stored} {w v : Value} (h : ofStored a = .ok w)
    (hv : v.IsScalar) : a.compareScalar? v.toStored = w.order? v :=
  compareScalar?_of_scalar (scalar_of_ofStored h) hv

/-- A stored value that has no value has no order. -/
lemma compareScalar?_eq_none {a : Stored} {v : Value} {cause : ConversionError}
    (h : ofStored a = .error cause) (hv : v.IsScalar) : a.compareScalar? v.toStored = none := by
  obtain ⟨hd, hs⟩ := scalar_of_ofStored_error h
  exact compareScalar?_of_scalar (w := .null) ⟨hd.symm, hs.symm⟩ hv

/-- A value is the same as a scalar exactly if neither comes first. -/
lemma same_eq_order? {v : Value} (hv : v.IsScalar) (w : Value) :
    w.same v = (w.order? v == some .eq) := by
  have numbers : ∀ x y : Decimal, x.same y = (some (x.compare y) == some .eq) := by
    intro x y
    rw [Bool.eq_iff_iff, Decimal.same_iff, beq_iff_eq, Option.some_inj, Decimal.compare_eq,
      compare_eq_iff_eq]
  rcases hv with ⟨y, hy⟩ | ⟨t, rfl⟩
  · cases v with
    | int n => cases w <;> first | exact numbers _ _ | rfl
    | decimal d => cases w <;> first | exact numbers _ _ | rfl
    | _ => cases hy
  · cases w with
    | string s =>
      change (s == t) = (some (compare s t) == some .eq)
      rw [Bool.eq_iff_iff, beq_iff_eq, beq_iff_eq, Option.some_inj, Std.compare_eq_iff_eq]
    | _ => rfl

end Value

end TableQuery
