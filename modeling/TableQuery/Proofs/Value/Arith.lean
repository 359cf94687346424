import TableQuery.Proofs.Decimal.Arith
import TableQuery.Proofs.Except
import TableQuery.Proofs.Value.Comparison

/-!
# Arithmetic on values is exact

The result of an operation on numbers stands for the exact result, whether it is an integer or a
decimal and on whichever side of the machine integers it lies. So the laws of sums and differences
hold by value. With a string a sum joins two texts, and all else fails.
-/

namespace TableQuery.Value

/-- An integer. -/
def IsInt (v : Value) : Prop :=
  ∃ n, v = .int n

/-- A value without a text that a string can be joined with. -/
inductive Textless : Value → Prop
  | null : Textless .null
  | list (elements) : Textless (.list elements)
  | map (fields) : Textless (.map fields)
  | stored (v) : Textless (.stored v)

/-- The outcome stands for a number. -/
def Gives (r : Except QueryError Value) (q : ℚ) : Prop :=
  ∃ v, r = .ok v ∧ v.Denotes q

/-- The outcome stands for the exact number `q`, as an integer if all operands are integers and the
number fits, and else as a decimal. -/
def IsExact (operands : List Value) (q : ℚ) (r : Except QueryError Value) : Prop :=
  ∃ v, r = .ok v ∧ v.Denotes q ∧ (v.IsInt ↔ (∀ a ∈ operands, a.IsInt) ∧ FitsInt64 q)

/-- Two computations have values that are the same. -/
def SameResult (r s : Except QueryError Value) : Prop :=
  ∃ v w, r = .ok v ∧ s = .ok w ∧ v.same w = true

variable {a b : Value} {x y : ℚ} {r s : Except QueryError Value}

/-- An exact result stands for its number. -/
lemma IsExact.gives {operands : List Value} (h : IsExact operands x r) : Gives r x := by
  obtain ⟨v, hr, hv, -⟩ := h
  exact ⟨v, hr, hv⟩

/-- A computation with a number has a result that stands for what it makes of every form of the
number. -/
lemma Gives.bind {f : Value → Except QueryError Value} (h : Gives r x)
    (hf : ∀ v, v.Denotes x → Gives (f v) y) : Gives (r >>= f) y := by
  obtain ⟨v, rfl, hv⟩ := h
  exact hf v hv

/-- Results that stand for one number are the same. -/
lemma Gives.sameResult (hr : Gives r x) (hs : Gives s x) : SameResult r s := by
  obtain ⟨v, hv, hvx⟩ := hr
  obtain ⟨w, hw, hwx⟩ := hs
  exact ⟨v, w, hv, hw, (same_iff_denotes hvx).2 hwx⟩

/-- No decimal is an integer value. -/
lemma not_isInt_decimal (d : Decimal) : ¬ (Value.decimal d).IsInt := by
  rintro ⟨n, ⟨⟩⟩

/-- An integer where the result fits, and where it does not a decimal in its place. -/
lemma isExact_int64? {operands : List Value} (hints : ∀ a ∈ operands, a.IsInt) {n : ℤ} {d : Decimal}
    (hd : d.value = n) :
    IsExact operands n (.ok (((Text.int64? n).map .int).getD (.decimal d))) := by
  cases hn : Text.int64? n with
  | some k =>
    have hk := Text.int64?_eq_some_iff.1 hn
    refine ⟨.int k, rfl, ?_, iff_of_true ⟨k, rfl⟩ ⟨hints, fitsInt64_iff.2 ⟨k, hn⟩⟩⟩
    rw [← hk]
    exact .int k
  | none =>
    refine ⟨.decimal d, rfl, ?_, iff_of_false (not_isInt_decimal d) fun h => ?_⟩
    · rw [← hd]
      exact .decimal d
    · exact not_fitsInt64_iff.2 hn h.2

/-- A decimal is the exact result if one of the operands is a decimal. -/
lemma isExact_decimal {operands : List Value} {c : Decimal} (hc : .decimal c ∈ operands)
    (d : Decimal) : IsExact operands d.value (.ok (.decimal d)) := by
  refine ⟨.decimal d, rfl, .decimal d, iff_of_false (not_isInt_decimal d) fun h => ?_⟩
  exact not_isInt_decimal c (h.1 _ hc)

section Numbers

variable {op : Int → Int → Int} {decimalOp : Decimal → Decimal → Decimal} {exactOp : ℚ → ℚ → ℚ}

/-- An operation that is exact on integers and on decimals is exact on numbers of both kinds. -/
lemma isExact_number (hint : ∀ m n : ℤ, (op m n : ℚ) = exactOp m n)
    (hdecimal : ∀ c d : Decimal, (decimalOp c d).value = exactOp c.value d.value)
    (ha : a.Denotes x) (hb : b.Denotes y) :
    ∃ v, (int? op a b <|> number? decimalOp a b) = some v
      ∧ IsExact [a, b] (exactOp x y) (.ok v) := by
  have left : ∀ {v w : Value}, v ∈ [v, w] := List.mem_cons_self
  have right : ∀ {v w : Value}, w ∈ [v, w] := List.mem_cons_of_mem _ List.mem_cons_self
  cases ha with
  | decimal c =>
    cases hb with
    | decimal d =>
      refine ⟨_, rfl, ?_⟩
      rw [← hdecimal]
      exact isExact_decimal left _
    | int n =>
      refine ⟨_, rfl, ?_⟩
      rw [← Decimal.value_ofInt, ← hdecimal]
      exact isExact_decimal left _
  | int m =>
    cases hb with
    | decimal d =>
      refine ⟨_, rfl, ?_⟩
      rw [← Decimal.value_ofInt, ← hdecimal]
      exact isExact_decimal right _
    | int n =>
      -- the sum of the decimals stands in where the sum of the integers does not fit
      have hints : ∀ v ∈ [Value.int m, .int n], v.IsInt := by
        simp [IsInt]
      have hvalue : (decimalOp (.ofInt m.toInt) (.ofInt n.toInt)).value = op m.toInt n.toInt := by
        rw [hdecimal, Decimal.value_ofInt, Decimal.value_ofInt, hint]
      refine ⟨((Text.int64? (op m.toInt n.toInt)).map .int).getD
        (.decimal (decimalOp (.ofInt m.toInt) (.ofInt n.toInt))), ?_, ?_⟩
      · rw [int?]
        cases Text.int64? (op m.toInt n.toInt) <;> rfl
      · rw [← hint]
        exact isExact_int64? hints hvalue

end Numbers

/-- The sum of two numbers is exact. -/
lemma add_isExact (ha : a.Denotes x) (hb : b.Denotes y) : IsExact [a, b] (x + y) (a.add b) := by
  obtain ⟨v, hv, hexact⟩ := isExact_number Int.cast_add Decimal.value_add ha hb
  rw [add, hv]
  exact hexact

/-- The difference of two numbers is exact. -/
lemma subtract_isExact (ha : a.Denotes x) (hb : b.Denotes y) :
    IsExact [a, b] (x - y) (a.subtract b) := by
  obtain ⟨v, hv, hexact⟩ := isExact_number Int.cast_sub Decimal.value_sub ha hb
  rw [subtract, hv]
  exact hexact

/-- The negative of a number is exact. -/
lemma negate_isExact (ha : a.Denotes x) : IsExact [a] (-x) a.negate := by
  cases ha with
  | int n =>
    have hvalue : (-(Decimal.ofInt n.toInt)).value = (-n.toInt : ℤ) := by
      show (Decimal.ofInt n.toInt).neg.value = _
      rw [Decimal.value_neg, Decimal.value_ofInt, Int.cast_neg]
    have hints : ∀ v ∈ [Value.int n], v.IsInt := by
      simp [IsInt]
    have hexact := isExact_int64? hints hvalue
    rw [negate, ← Int.cast_neg]
    cases h : Text.int64? (-n.toInt) with
    | some m => rwa [h] at hexact
    | none => rwa [h] at hexact
  | decimal d =>
    rw [negate, ← Decimal.value_neg]
    exact isExact_decimal List.mem_cons_self _

/-- Values that are not two numbers have no numeric result. -/
lemma number_eq_none (op : Int → Int → Int) (decimalOp : Decimal → Decimal → Decimal)
    (h : ¬ (a.IsNumber ∧ b.IsNumber)) : (int? op a b <|> number? decimalOp a b) = none := by
  have hdecimal : ¬ ∃ c d, a.decimal? = some c ∧ b.decimal? = some d := by
    rintro ⟨c, d, hc, hd⟩
    exact h ⟨⟨_, denotes_iff.2 ⟨c, hc, rfl⟩⟩, _, denotes_iff.2 ⟨d, hd, rfl⟩⟩
  cases a <;> cases b <;> first | rfl | exact absurd ⟨_, _, rfl, rfl⟩ hdecimal

/-- A value with a text is read as it. -/
lemma readText_of_not_textless (h : ¬ a.Textless) : a.readText = .ok a.text := by
  cases a with
  | null => exact absurd .null h
  | list xs => exact absurd (.list xs) h
  | map fields => exact absurd (.map fields) h
  | stored v => exact absurd (.stored v) h
  | string _ | int _ | decimal _ | bool _ => rw [readText, asText?, text]

/-- A value without a text cannot be read as one. -/
lemma readText_of_textless (h : a.Textless) : a.readText = .error (.noText a) := by
  cases h <;> rfl

/-- A value is taken for a string if it is one. -/
lemma isSome_string?_iff : a.string?.isSome = true ↔ a.IsString := by
  cases a <;> simp [string?, IsString]

/-- If one of two values is a string, then their texts are joined. -/
lemma add_of_isString (h : a.IsString ∨ b.IsString) :
    a.add b = (do
      let s ← a.readText
      let t ← b.readText
      return .string (s ++ t)) := by
  have hnumber : ¬ (a.IsNumber ∧ b.IsNumber) := by
    rintro ⟨⟨_, ha⟩, _, hb⟩
    rcases h with ⟨s, rfl⟩ | ⟨s, rfl⟩
    · cases ha
    · cases hb
  rw [← isSome_string?_iff, ← isSome_string?_iff, ← Bool.or_eq_true] at h
  rw [add, number_eq_none _ _ hnumber]
  exact if_pos h

/-- A string and a value with a text are joined. -/
lemma add_join (h : a.IsString ∨ b.IsString) (ha : ¬ a.Textless) (hb : ¬ b.Textless) :
    a.add b = .ok (.string (a.text ++ b.text)) := by
  rw [add_of_isString h, readText_of_not_textless ha, readText_of_not_textless hb]
  rfl

/-- A string and a value without a text are not joined. -/
lemma add_fails_iff (h : a.IsString ∨ b.IsString) :
    (∃ e, a.add b = .error e) ↔ a.Textless ∨ b.Textless := by
  constructor
  · rintro ⟨e, he⟩
    by_contra hnone
    obtain ⟨ha, hb⟩ := not_or.1 hnone
    rw [add_join h ha hb] at he
    cases he
  · rw [add_of_isString h]
    intro htextless
    by_cases ha : a.Textless
    · rw [readText_of_textless ha]
      exact ⟨_, rfl⟩
    · rw [readText_of_not_textless ha, readText_of_textless (htextless.resolve_left ha)]
      exact ⟨_, rfl⟩

/-- Values that are neither two numbers nor a string and something cannot be added. -/
lemma add_unsupported (hnumber : ¬ (a.IsNumber ∧ b.IsNumber)) (ha : ¬ a.IsString)
    (hb : ¬ b.IsString) : a.add b = .error (.unsupported (.addition a b)) := by
  have hstring := not_or.2 ⟨ha, hb⟩
  rw [← isSome_string?_iff, ← isSome_string?_iff, ← Bool.or_eq_true] at hstring
  rw [add, number_eq_none _ _ hnumber]
  exact if_neg hstring

/-- Values that are not two numbers cannot be subtracted. -/
lemma subtract_unsupported (h : ¬ (a.IsNumber ∧ b.IsNumber)) :
    a.subtract b = .error (.unsupported (.subtraction a b)) := by
  rw [subtract, number_eq_none _ _ h]

/-- The laws of sums and differences, by value. -/
lemma add_laws {c : Value} {z : ℚ} (ha : a.Denotes x) (hb : b.Denotes y) (hc : c.Denotes z) :
    SameResult (a.add b) (b.add a)
      ∧ SameResult (a.add b >>= fun s => s.add c) (b.add c >>= fun s => a.add s)
      ∧ SameResult (a.add b >>= fun s => s.subtract b) (.ok a)
      ∧ SameResult (a.subtract b) (b.subtract a >>= negate) := by
  have hadd := add_isExact ha hb
  refine ⟨?_, ?_, ?_, ?_⟩
  · apply hadd.gives.sameResult
    rw [add_comm]
    exact (add_isExact hb ha).gives
  · have hleft : Gives (a.add b >>= fun s => s.add c) (x + y + z) :=
      hadd.gives.bind fun s hs => (add_isExact hs hc).gives
    apply hleft.sameResult
    rw [add_assoc]
    exact (add_isExact hb hc).gives.bind fun s hs => (add_isExact ha hs).gives
  · have hleft : Gives (a.add b >>= fun s => s.subtract b) (x + y - y) :=
      hadd.gives.bind fun s hs => (subtract_isExact hs hb).gives
    apply hleft.sameResult
    rw [add_sub_cancel_right]
    exact ⟨a, rfl, ha⟩
  · apply (subtract_isExact ha hb).gives.sameResult
    rw [← neg_sub]
    exact (subtract_isExact hb ha).gives.bind fun s hs => (negate_isExact hs).gives

/-- Sums, differences and negations of numbers are exact, and integers if they can be. By value sums
can be exchanged and regrouped, and differences undo them. A sum with a string joins the texts of
both operands if they have one. All other sums and differences fail. -/
theorem arith_exact :
    (∀ (a b : Value) (x y : ℚ), a.Denotes x → b.Denotes y → IsExact [a, b] (x + y) (a.add b)
      ∧ IsExact [a, b] (x - y) (a.subtract b) ∧ IsExact [a] (-x) a.negate)
    ∧ (∀ a b c : Value, a.IsNumber → b.IsNumber → c.IsNumber →
      SameResult (a.add b) (b.add a)
        ∧ SameResult (a.add b >>= fun s => s.add c) (b.add c >>= fun s => a.add s)
        ∧ SameResult (a.add b >>= fun s => s.subtract b) (.ok a)
        ∧ SameResult (a.subtract b) (b.subtract a >>= negate))
    ∧ (∀ a b : Value, a.IsString ∨ b.IsString →
      (¬ a.Textless → ¬ b.Textless → a.add b = .ok (.string (a.text ++ b.text)))
        ∧ ((∃ e, a.add b = .error e) ↔ a.Textless ∨ b.Textless))
    ∧ (∀ a b : Value, ¬ (a.IsNumber ∧ b.IsNumber) →
      (¬ a.IsString → ¬ b.IsString → a.add b = .error (.unsupported (.addition a b)))
        ∧ a.subtract b = .error (.unsupported (.subtraction a b))) := by
  refine ⟨fun a b x y ha hb => ?_, fun a b c ha hb hc => ?_, fun a b h => ?_, fun a b h => ?_⟩
  · exact ⟨add_isExact ha hb, subtract_isExact ha hb, negate_isExact ha⟩
  · obtain ⟨⟨x, ha⟩, ⟨y, hb⟩, ⟨z, hc⟩⟩ := And.intro ha (And.intro hb hc)
    exact add_laws ha hb hc
  · exact ⟨add_join h, add_fails_iff h⟩
  · exact ⟨add_unsupported h, subtract_unsupported h⟩

/-- The successor of the largest machine integer is a decimal, and its predecessor is an integer
again. -/
theorem arith_exact_limit :
    let a : Value := .int 9223372036854775807
    let b : Value := .int 1
    let c : Value := .decimal ⟨5, 1⟩
    a.Denotes 9223372036854775807 ∧ b.Denotes 1 ∧ c.IsNumber
      ∧ IsExact [a, b] (9223372036854775807 + 1) (a.add b)
      ∧ SameResult (a.add b >>= fun s => s.add c) (b.add c >>= fun s => a.add s)
      ∧ SameResult (a.add b >>= fun s => s.subtract b) (.ok a)
      ∧ c.add (.string "s") = .ok (.string (c.text ++ "s"))
      ∧ (∃ e, Value.null.add (.string "s") = .error e)
      ∧ Value.null.add b = .error (.unsupported (.addition .null b)) := by
  intro a b c
  obtain ⟨hnumbers, hlaws, hstrings, hothers⟩ := arith_exact
  have ha : a.Denotes 9223372036854775807 := by
    have hlimit : (9223372036854775807 : Int64).toInt = 9223372036854775807 := by decide
    have h := Denotes.int 9223372036854775807
    rw [hlimit] at h
    exact_mod_cast h
  have hb : b.Denotes 1 := by
    have hone : (1 : Int64).toInt = 1 := by decide
    have h := Denotes.int 1
    rw [hone] at h
    exact_mod_cast h
  have hc : c.IsNumber := ⟨_, .decimal _⟩
  have hlaw := hlaws a b c ⟨_, ha⟩ ⟨_, hb⟩ hc
  have hstring (v : Value) : v.IsString ∨ (Value.string "s").IsString := .inr ⟨_, rfl⟩
  refine ⟨ha, hb, hc, (hnumbers a b _ _ ha hb).1, hlaw.2.1, hlaw.2.2.1, ?_, ?_, ?_⟩
  · have htext : ¬ Textless (.decimal ⟨5, 1⟩) := by rintro ⟨⟩
    exact (hstrings c _ (hstring c)).1 htext (by rintro ⟨⟩)
  · exact (hstrings .null _ (hstring .null)).2.2 (.inl .null)
  · have hone : ¬ IsString (.int 1) := by rintro ⟨_, ⟨⟩⟩
    exact (hothers .null b (by rintro ⟨⟨_, ⟨⟩⟩, -⟩)).1 (by rintro ⟨_, ⟨⟩⟩) hone

end TableQuery.Value
