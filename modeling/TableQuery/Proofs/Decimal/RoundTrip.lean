import TableQuery.Proofs.Decimal.Numeral

/-!
# Reading the text of a decimal

The text of a decimal is read back as a decimal of the same number, at whatever scale it was written
and however its text abbreviates it.
-/

namespace TableQuery.Decimal

open TableQuery.Text (digits digitsValue)

/-- A numeral writes the number of a decimal, at a scale that a decimal can have. The digits of the
numeral at its scale are written as those of the decimal are. -/
structure Numeral.Writes (n : Numeral) (d : Decimal) : Prop where
  scale : ∃ s : Int64, s.toInt = n.scale
  value : (n.coefficient : ℚ) * (10 : ℚ) ^ (-n.scale) = d.value
  text : d.coefficient ≠ 0 → unsignedText (digits n.coefficient) n.scale
    = unsignedText (digits d.coefficient.natAbs) d.scale.toInt

/-- A numeral is read as the number that it writes. -/
lemma ofChars?_of_writes {n : Numeral} {d : Decimal} (h : n.Writes d) {mark : Char}
    (hm : mark = 'e' ∨ mark = 'E') :
    ∃ s, ofChars? (n.text mark) = some ⟨n.coefficient, s⟩
      ∧ (⟨n.coefficient, s⟩ : Decimal).value = d.value ∧ s.toInt = n.scale := by
  obtain ⟨s, hs⟩ := h.scale
  refine ⟨s, ?_, ?_, hs⟩
  · rw [ofChars?_numeral hm, Text.int64?_eq_some_iff.2 hs]
    rfl
  · rw [← h.value, ← hs]
    rfl

/-- What is read from a numeral is written as the decimal that the numeral writes. -/
lemma Numeral.Writes.text_eq {n : Numeral} {d : Decimal} (h : n.Writes d) (hd : 0 ≤ d.coefficient)
    {s : Int64} (hs : s.toInt = n.scale)
    (hvalue : (⟨n.coefficient, s⟩ : Decimal).value = d.value) :
    (⟨n.coefficient, s⟩ : Decimal).text = d.text := by
  have hzero : ((n.coefficient : Int) = 0) = (d.coefficient = 0) := by
    rw [← value_eq_zero_iff d, ← hvalue, value_eq_zero_iff]
  unfold Decimal.text
  simp only [hzero]
  split
  next => rfl
  next hne => rw [if_neg (by omega), if_neg (by omega), Int.natAbs_natCast, hs, h.text hne]

/-- A numeral that keeps digits at their scale writes them. -/
lemma Numeral.writes_of_eq {n : Numeral} {k : Nat} {scale : Int64} (hs : n.scale = scale.toInt)
    (hc : n.coefficient = k) : n.Writes ⟨k, scale⟩ where
  scale := ⟨scale, hs.symm⟩
  value := by
    rw [hs, hc]
    rfl
  text _ := by
    rw [hs, hc, Int.natAbs_natCast]

/-- A natural number as it is written. -/
def Numeral.ofNat (k : Nat) : Numeral where
  whole := digits k
  fraction := []
  exponent := none
  whole_ne_nil := Text.digits_ne_nil k
  whole_digits := Text.all_isDigit_digits k
  fraction_digits := rfl

/-- Digits with an exponent behind them. -/
def Numeral.ofDigits (k : Nat) (x : Exponent) : Numeral where
  whole := digits k
  fraction := []
  exponent := some x
  whole_ne_nil := Text.digits_ne_nil k
  whole_digits := Text.all_isDigit_digits k
  fraction_digits := rfl

/-- Digits with an exponent are at the scale opposite to it. -/
lemma Numeral.ofDigits_writes {k : Nat} {x : Exponent} {scale : Int64} (h : x.value = -scale.toInt) :
    (Numeral.ofDigits k x).Writes ⟨k, scale⟩ := by
  apply writes_of_eq
  · change (0 : Int) - x.value = _
    omega
  · change digitsValue (digits k ++ []) = k
    rw [List.append_nil, Text.digitsValue_digits]

/-- Digits with the point behind the first. -/
lemma scientific_eq_text (k : Nat) (scale : Int64) :
    ∃ n : Numeral, scientific 'E' (digits k) ((digits k).length - 1 - scale.toInt) = n.text 'E'
      ∧ n.Writes ⟨k, scale⟩ := by
  have hd := Text.all_isDigit_digits k
  have hlen : 0 < (digits k).length := List.length_pos_of_ne_nil (Text.digits_ne_nil k)
  rw [← List.take_append_drop 1 (digits k), List.all_append, Bool.and_eq_true] at hd
  let n : Numeral := {
    whole := (digits k).take 1
    fraction := (digits k).drop 1
    exponent := some (.ofInt .plus ((digits k).length - 1 - scale.toInt))
    whole_ne_nil := List.ne_nil_of_length_pos (by rw [List.length_take]; omega)
    whole_digits := hd.1
    fraction_digits := hd.2 }
  refine ⟨n, ?_, Numeral.writes_of_eq ?_ ?_⟩
  · have mark : (if (digits k).length - 1 - scale.toInt < 0 then '-' else '+') ::
        digits ((digits k).length - 1 - scale.toInt).natAbs
        = (Exponent.ofInt .plus ((digits k).length - 1 - scale.toInt)).text := by
      unfold Exponent.ofInt Exponent.text
      split <;> rfl
    unfold scientific
    rw [mark]
    exact List.append_assoc _ _ _
  · -- the exponent makes up for the digits that are moved behind the point
    change (((digits k).drop 1).length : Int) - (Exponent.ofInt .plus _).value = scale.toInt
    rw [Exponent.value_ofInt (by simp), List.length_drop]
    omega
  · change digitsValue ((digits k).take 1 ++ (digits k).drop 1) = k
    rw [List.take_append_drop, Text.digitsValue_digits]

/-- Digits at scale zero are written as they are. -/
lemma unsignedText_zero (ds : List Char) : unsignedText ds 0 = ds := by
  unfold unsignedText
  rw [if_neg (by omega), if_neg (by decide), plain, if_pos (Int.le_refl 0)]
  exact List.append_nil ds

/-- Digits with zeros behind them. -/
lemma plain_eq_text_of_nonpos (k : Nat) {scale : Int64} (hs : scale.toInt ≤ 0)
    (hfew : ¬ scale.toInt < -(maxTrailingZeros : Int)) :
    ∃ n : Numeral, plain (digits k) scale.toInt = n.text 'E' ∧ n.Writes ⟨k, scale⟩ := by
  let n : Numeral := {
    whole := digits k ++ List.replicate scale.toInt.natAbs '0'
    fraction := []
    exponent := none
    whole_ne_nil := List.append_ne_nil_of_left_ne_nil (Text.digits_ne_nil k) _
    whole_digits := by
      rw [List.all_append, Text.all_isDigit_digits, List.all_replicate]
      simp
    fraction_digits := rfl }
  -- the zeros are part of the coefficient, at scale zero
  have coefficient : n.coefficient = 10 ^ scale.toInt.natAbs * k := by
    change digitsValue ((digits k ++ List.replicate _ '0') ++ []) = _
    rw [List.append_nil, Text.digitsValue_append_zeros, Text.digitsValue_digits]
  refine ⟨n, ?_, ⟨0, rfl⟩, ?_, fun hk => ?_⟩
  · rw [plain, if_pos hs]
    exact (List.append_nil _).symm
  · have power : (10 : ℚ) ^ (-scale.toInt) = 10 ^ scale.toInt.natAbs := by
      rw [← zpow_natCast]
      congr 1
      omega
    rw [coefficient, value, power]
    change _ * (10 : ℚ) ^ (-(0 - 0 : Int)) = _
    push_cast
    ring
  · have hpos : 0 < k := Nat.pos_of_ne_zero fun e => hk (by rw [e]; rfl)
    have hshort : ¬ ((digits k).length : Int) + maxLeadingZeros < scale.toInt := by omega
    change unsignedText (digits n.coefficient) 0 = unsignedText (digits k) scale.toInt
    rw [unsignedText_zero, coefficient, Text.digits_mul_pow hpos, unsignedText, if_neg hshort,
      if_neg hfew, plain, if_pos hs]

/-- Digits with a point among them or before them. -/
lemma pointed_eq_text (k : Nat) {scale : Int64} (hs : 0 < scale.toInt) :
    ∃ n : Numeral, plain (digits k) scale.toInt = n.text 'E' ∧ n.Writes ⟨k, scale⟩ := by
  have hd := Text.all_isDigit_digits k
  rw [plain, if_neg (by omega), pointed]
  split
  next hlt =>
    set cut := (digits k).length - scale.toInt.toNat with hcut
    rw [← List.take_append_drop cut (digits k), List.all_append, Bool.and_eq_true] at hd
    have hfraction : ((digits k).drop cut).length = scale.toInt.toNat := by
      rw [List.length_drop]
      omega
    let n : Numeral := {
      whole := (digits k).take cut
      fraction := (digits k).drop cut
      exponent := none
      whole_ne_nil := List.ne_nil_of_length_pos (by rw [List.length_take]; omega)
      whole_digits := hd.1
      fraction_digits := hd.2 }
    refine ⟨n, ?_, Numeral.writes_of_eq ?_ ?_⟩
    · have hne : ((digits k).drop cut).isEmpty = false := by
        rw [List.isEmpty_eq_false_iff, ← List.length_pos_iff_ne_nil]
        omega
      change _ = _ ++ ((if ((digits k).drop cut).isEmpty then _ else _) ++ [])
      rw [hne, List.append_nil]
      rfl
    · change (((digits k).drop cut).length : Int) - 0 = _
      omega
    · change digitsValue ((digits k).take cut ++ (digits k).drop cut) = k
      rw [List.take_append_drop, Text.digitsValue_digits]
  next hge =>
    let n : Numeral := {
      whole := ['0']
      fraction := List.replicate (scale.toInt.toNat - (digits k).length) '0' ++ digits k
      exponent := none
      whole_ne_nil := List.cons_ne_nil _ _
      whole_digits := rfl
      fraction_digits := by
        rw [List.all_append, hd, List.all_replicate]
        simp }
    refine ⟨n, ?_, Numeral.writes_of_eq ?_ ?_⟩
    · have hne : n.fraction.isEmpty = false := by
        rw [List.isEmpty_eq_false_iff]
        exact List.append_ne_nil_of_right_ne_nil _ (Text.digits_ne_nil k)
      change _ = _ ++ ((if n.fraction.isEmpty then _ else _) ++ [])
      rw [hne, List.append_nil]
      rfl
    · change ((List.replicate _ '0' ++ digits k).length : Int) - 0 = _
      rw [List.length_append, List.length_replicate]
      omega
    · change digitsValue (List.replicate 1 '0' ++ (List.replicate _ '0' ++ digits k)) = k
      rw [Text.digitsValue_zeros_append, Text.digitsValue_zeros_append, Text.digitsValue_digits]

/-- The digits of a number at a scale are written as a numeral of that decimal. -/
lemma unsignedText_eq_text (k : Nat) (scale : Int64) :
    ∃ (n : Numeral) (mark : Char), (mark = 'e' ∨ mark = 'E')
      ∧ unsignedText (digits k) scale.toInt = n.text mark ∧ n.Writes ⟨k, scale⟩ := by
  unfold unsignedText
  split
  next =>
    obtain ⟨n, htext, hn⟩ := scientific_eq_text k scale
    exact ⟨n, 'E', .inr rfl, htext, hn⟩
  next =>
    split
    next h =>
      have hneg : scale.toInt < 0 := by
        unfold maxTrailingZeros at h
        omega
      refine ⟨.ofDigits k ⟨.plus, scale.toInt.natAbs⟩, 'e', .inl rfl, rfl, ?_⟩
      apply Numeral.ofDigits_writes
      change (scale.toInt.natAbs : Int) = _
      omega
    next hfew =>
      rcases le_or_gt scale.toInt 0 with h | h
      · obtain ⟨n, htext, hn⟩ := plain_eq_text_of_nonpos k h hfew
        exact ⟨n, 'E', .inr rfl, htext, hn⟩
      · obtain ⟨n, htext, hn⟩ := pointed_eq_text k h
        exact ⟨n, 'E', .inr rfl, htext, hn⟩

/-- A character of the other kind goes with what is split off first. -/
lemma splitFirst_cons {p : Char → Bool} {c : Char} (hc : p c = false) (s : List Char) :
    splitFirst p (c :: s) = (c :: (splitFirst p s).1, (splitFirst p s).2) := by
  unfold splitFirst
  rw [List.dropWhile_cons_of_pos (by simp [hc]), List.takeWhile_cons_of_pos (by simp [hc])]
  split <;> rfl

/-- A minus sign before a numeral negates it. -/
lemma ofChars?_minus {mark : Char} (hm : mark = 'e' ∨ mark = 'E') (n : Numeral) :
    ofChars? ('-' :: n.text mark) = (ofChars? (n.text mark)).map Decimal.neg := by
  obtain ⟨f, hf, hfraction⟩ := splitFirst_point n
  have hne : n.whole ++ n.fraction ≠ [] := List.append_ne_nil_of_left_ne_nil n.whole_ne_nil _
  have hd : (n.whole ++ n.fraction).all Char.isDigit := by
    rw [List.all_append, n.whole_digits, n.fraction_digits]
    rfl
  have negated : intOfSpaced? ('-' :: (n.whole ++ n.fraction))
      = (intOfSpaced? (n.whole ++ n.fraction)).map (-·) := by
    rw [intOfSpaced?_digits hne hd, intOfSpaced?, natOfSpaced?,
      if_neg (head?_digits hd (by decide)), filter_digits hd, Text.natOfDigits?_eq_some hne hd]
    rfl
  unfold ofChars?
  rw [splitFirst_cons (by decide), splitFirst_exponent hm]
  simp only [hf, hfraction, splitFirst_cons (p := (· == '.')) (c := '-') (by decide),
    List.cons_append, negated, Option.bind_eq_bind]
  cases (n.exponent.map Exponent.text).elim (some 0) Text.intOfDigits? with
  | none => rfl
  | some exponent =>
    cases intOfSpaced? (n.whole ++ n.fraction) with
    | none => rfl
    | some k =>
      simp only [Option.bind_some, Option.map_some]
      cases Text.int64? _ <;> rfl

/-- The text of a decimal that is not negative is a numeral of its number. -/
lemma toList_text_of_nonneg {d : Decimal} (hd : 0 ≤ d.coefficient) :
    ∃ (n : Numeral) (mark : Char), (mark = 'e' ∨ mark = 'E') ∧ d.text.toList = n.text mark
      ∧ n.Writes d := by
  unfold text
  split
  next h =>
    refine ⟨.ofNat 0, 'E', .inr rfl, rfl, ⟨0, rfl⟩, ?_, fun hne => absurd h hne⟩
    rw [(value_eq_zero_iff d).2 h]
    exact zero_mul _
  next h =>
    obtain ⟨n, mark, hm, htext, hn⟩ := unsignedText_eq_text d.coefficient.natAbs d.scale
    have e : (⟨d.coefficient.natAbs, d.scale⟩ : Decimal) = d := by
      rw [Int.natAbs_of_nonneg hd]
    refine ⟨n, mark, hm, ?_, e ▸ hn⟩
    rw [if_neg (by omega), String.toList_ofList, List.nil_append, htext]

/-- A negative decimal is written with a minus sign. -/
lemma toList_text_of_neg {d : Decimal} (hd : d.coefficient < 0) :
    d.text.toList = '-' :: d.neg.text.toList := by
  have hneg : ¬ d.neg.coefficient < 0 := by
    change ¬ -d.coefficient < 0
    omega
  have hzero : d.neg.coefficient ≠ 0 := by
    change -d.coefficient ≠ 0
    omega
  rw [text, text, if_neg (by omega), if_neg hzero, if_pos hd, if_neg hneg, String.toList_ofList,
    String.toList_ofList, List.nil_append, List.singleton_append, Decimal.neg, Int.natAbs_neg]

/-- The text of a decimal that is not negative is read as one of its number and its text. -/
lemma ofChars?_text_of_nonneg {d : Decimal} (hd : 0 ≤ d.coefficient) :
    ∃ (n : Numeral) (mark : Char) (s : Int64), (mark = 'e' ∨ mark = 'E')
      ∧ d.text.toList = n.text mark ∧ ofChars? (n.text mark) = some ⟨n.coefficient, s⟩
      ∧ (⟨n.coefficient, s⟩ : Decimal).value = d.value
      ∧ (⟨n.coefficient, s⟩ : Decimal).text = d.text := by
  obtain ⟨n, mark, hm, htext, hn⟩ := toList_text_of_nonneg hd
  obtain ⟨s, hread, hvalue, hs⟩ := ofChars?_of_writes hn hm
  exact ⟨n, mark, s, hm, htext, hread, hvalue, hn.text_eq hd hs hvalue⟩

/-- The text of a decimal is read as a decimal of its number, which has the same text. -/
lemma ofText?_text (d : Decimal) :
    ∃ r, ofText? d.text = some r ∧ r.value = d.value ∧ r.text = d.text := by
  unfold ofText?
  rcases lt_or_ge d.coefficient 0 with h | h
  · have hneg : 0 < d.neg.coefficient := by
      change 0 < -d.coefficient
      omega
    obtain ⟨n, mark, s, hm, htext, hread, hvalue, hsame⟩ := ofChars?_text_of_nonneg hneg.le
    have hn : Decimal.coefficient (Decimal.neg ⟨n.coefficient, s⟩) < 0 := by
      rw [← value_neg_iff, value_neg, hvalue, value_neg, neg_neg, value_neg_iff]
      exact h
    refine ⟨Decimal.neg ⟨n.coefficient, s⟩, ?_, ?_, ?_⟩
    · rw [toList_text_of_neg h, htext, ofChars?_minus hm, hread]
      rfl
    · rw [value_neg, hvalue, value_neg, neg_neg]
    · rw [← String.toList_inj, toList_text_of_neg hn, toList_text_of_neg h, ← hsame, Decimal.neg,
        Decimal.neg, neg_neg]
  · obtain ⟨n, mark, s, hm, htext, hread, hvalue, hsame⟩ := ofChars?_text_of_nonneg h
    exact ⟨⟨n.coefficient, s⟩, by rw [htext, hread], hvalue, hsame⟩

end TableQuery.Decimal
