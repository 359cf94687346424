import TableQuery.Builtin.Apply
import TableQuery.Proofs.Decimal.Truncation
import TableQuery.Proofs.Value.Order

/-!
# Ranges of integers

A range of two numbers, whatever decimals they are, is the list of the machine integers from one to
the other, both cut off at the point. It fails if one of them does not fit, or if the list is too
long. Nothing that is computed on the way leaves the words that it is computed in.
-/

namespace TableQuery.Builtin

/-- The length of a range never leaves a word of 128 bits, so it is the exact one. -/
lemma toInt_wordLength (low high : Int64) :
    (wordLength low high).toInt = high.toInt - low.toInt + 1 := by
  have lowLeast := low.le_toInt
  have lowMost := low.toInt_lt
  have highLeast := high.le_toInt
  have highMost := high.toInt_lt
  have exact_of_fits : ∀ n : Int, -2 ^ 127 ≤ n → n < 2 ^ 127 → n.bmod (2 ^ 128) = n := by
    intro n hn hn'
    apply Int.bmod_eq_of_le <;> omega
  have one : (1 : BitVec 128).toInt = 1 := by decide
  unfold wordLength
  rw [BitVec.toInt_add, BitVec.toInt_sub, BitVec.toInt_ofInt, BitVec.toInt_ofInt, one,
    exact_of_fits high.toInt (by omega) (by omega), exact_of_fits low.toInt (by omega) (by omega),
    exact_of_fits (high.toInt - low.toInt) (by omega) (by omega)]
  exact exact_of_fits _ (by omega) (by omega)

/-- The machine integers from one to another, both included, in their order. -/
structure IsInterval (low high : Int) (ns : List Int64) : Prop where
  ordered : ns.Pairwise fun m n => m.toInt < n.toInt
  mem_iff : ∀ n : Int64, n ∈ ns ↔ low ≤ n.toInt ∧ n.toInt ≤ high

/-- The integers between two machine integers are machine integers. -/
lemma exists_interval (low high : Int64) :
    ∃ ns, interval low.toInt high.toInt = ns.map .int ∧ IsInterval low.toInt high.toInt ns := by
  have lowLeast := low.le_toInt
  have highMost := high.toInt_lt
  -- no element leaves the range of machine integers between the two ends
  have hnumber : ∀ k ∈ List.range (high.toInt - low.toInt + 1).toNat,
      (Int64.ofInt (low.toInt + k)).toInt = low.toInt + k := by
    intro k hk
    have := List.mem_range.1 hk
    exact Int64.toInt_ofInt_of_le (by omega) (by omega)
  refine ⟨(List.range (high.toInt - low.toInt + 1).toNat).map fun k : Nat =>
    Int64.ofInt (low.toInt + k), ?_, ?_, fun n => ?_⟩
  · rw [List.map_map]
    rfl
  · rw [List.pairwise_map]
    apply List.pairwise_lt_range.imp_of_mem
    intro j k hj hk hlt
    rw [hnumber j hj, hnumber k hk]
    omega
  · rw [List.mem_map]
    constructor
    · rintro ⟨k, hk, rfl⟩
      have := List.mem_range.1 hk
      rw [hnumber k hk]
      omega
    · rintro ⟨hlow, hhigh⟩
      refine ⟨(n.toInt - low.toInt).toNat, List.mem_range.2 (by omega), ?_⟩
      rw [Int.toNat_of_nonneg (by omega), add_sub_cancel, Int64.ofInt_toInt]

variable {env : Environment} {low high : Value} {x y : ℚ} {d : Decimal} {l h : Int64}

/-- A bound is cut off at its point, if the result fits. -/
lemma truncate_eq_ok_iff {f : Builtin} : truncate f d = .ok l ↔ l.toInt = truncated d.value := by
  rw [truncate, Decimal.truncate?_eq, ← Text.int64?_eq_some_iff]
  cases Text.int64? (truncated d.value) <;> simp

/-- A bound that does not fit is an error. -/
lemma truncate_of_not_fits {f : Builtin} (hd : ¬ FitsInt64 (truncated d.value)) :
    truncate f d = .error (.unsupported (.outOfRange f)) := by
  rw [truncate, Decimal.truncate?_eq, not_fitsInt64_iff.1 hd]

/-- A bound that fits is cut off at its point. -/
lemma exists_truncate {f : Builtin} (hd : FitsInt64 (truncated d.value)) :
    ∃ l, truncate f d = .ok l ∧ l.toInt = truncated d.value := by
  obtain ⟨l, hl⟩ := fitsInt64_iff.1 hd
  rw [Text.int64?_eq_some_iff] at hl
  exact ⟨l, truncate_eq_ok_iff.2 hl, hl⟩

/-- A range is made of the integers between its bounds, of which the first is cut off first. -/
lemma apply_range {c : Decimal} (hc : low.decimal? = some c) (hd : high.decimal? = some d) :
    apply env .range [low, high] = (do
      let l ← truncate .range c
      let h ← truncate .range d
      integers l h) := by
  show run env .range [low, high] = _
  rw [run, numberArg, numberArg, hc, hd]
  rfl

/-- From one integer to a lower one there are none. -/
lemma integers_of_lt (hlt : h.toInt < l.toInt) : integers l h = .ok (.list []) :=
  if_pos hlt

/-- Too many integers are an error. -/
lemma integers_of_long (hle : l.toInt ≤ h.toInt) (hlong : 100000 < h.toInt - l.toInt + 1) :
    integers l h = .error (.unsupported .longRange) := by
  rw [integers, if_neg hle.not_gt, toInt_wordLength]
  exact if_pos hlong

/-- Integers that are not too many are listed. -/
lemma integers_of_short (hle : l.toInt ≤ h.toInt) (hshort : h.toInt - l.toInt + 1 ≤ 100000) :
    ∃ ns : List Int64, integers l h = .ok (.list (ns.map .int))
      ∧ IsInterval l.toInt h.toInt ns := by
  obtain ⟨ns, hns, hinterval⟩ := exists_interval l h
  refine ⟨ns, ?_, hinterval⟩
  rw [integers, if_neg hle.not_gt, toInt_wordLength, ← hns]
  exact if_neg hshort.not_gt

/-- A range fails if one of its ends cut off at the point is no machine integer. Else it is empty if
the ends are the wrong way round, fails if it has more than 100000 elements, and otherwise consists
of the integers between its ends. A decimal is only brought to scale zero where that takes few
places, and the length of the range fits a word of 128 bits. -/
theorem range_exact (env : Environment) (hx : low.Denotes x) (hy : high.Denotes y) :
    (¬ (FitsInt64 (truncated x) ∧ FitsInt64 (truncated y)) →
      apply env .range [low, high] = .error (.unsupported (.outOfRange .range)))
    ∧ (FitsInt64 (truncated x) ∧ FitsInt64 (truncated y) →
      (truncated y < truncated x → apply env .range [low, high] = .ok (.list []))
      ∧ (truncated x ≤ truncated y →
        (100000 < truncated y - truncated x + 1 →
          apply env .range [low, high] = .error (.unsupported .longRange))
        ∧ (truncated y - truncated x + 1 ≤ 100000 →
          ∃ ns : List Int64, apply env .range [low, high] = .ok (.list (ns.map .int))
            ∧ IsInterval (truncated x) (truncated y) ns)))
    ∧ (∀ d, low.decimal? = some d ∨ high.decimal? = some d → d.Rescales →
      (-d.scale).toInt = -d.scale.toInt ∧ -19 < d.scale.toInt
        ∧ d.scale.toInt < Decimal.digitCount d.coefficient.natAbs)
    ∧ ∀ l h : Int64, l.toInt = truncated x → h.toInt = truncated y →
      (wordLength l h).toInt = truncated y - truncated x + 1 := by
  obtain ⟨c, hc, rfl⟩ := Value.denotes_iff.1 hx
  obtain ⟨d, hd, rfl⟩ := Value.denotes_iff.1 hy
  refine ⟨fun hfits => ?_, fun hfits => ?_, fun d _ h => ?_, fun l h hl hh => ?_⟩
  · rw [apply_range hc hd]
    by_cases hlow : FitsInt64 (truncated c.value)
    · obtain ⟨l, hl, -⟩ := exists_truncate hlow
      rw [hl, truncate_of_not_fits fun hhigh => hfits ⟨hlow, hhigh⟩]
      rfl
    · rw [truncate_of_not_fits hlow]
      rfl
  · obtain ⟨l, hl, hlow⟩ := exists_truncate hfits.1
    obtain ⟨h, hh, hhigh⟩ := exists_truncate hfits.2
    have happly : apply env .range [low, high] = integers l h := by
      rw [apply_range hc hd, hl, hh]
      rfl
    rw [happly, ← hlow, ← hhigh]
    exact ⟨integers_of_lt, fun hle => ⟨integers_of_long hle, integers_of_short hle⟩⟩
  · obtain ⟨hzeros, hplaces⟩ := Decimal.scale_bounds_of_rescales h
    refine ⟨?_, hzeros, hplaces⟩
    have hmost := d.scale.toInt_lt
    rw [Int64.toInt_neg]
    apply Int.bmod_eq_of_le <;> omega
  · rw [toInt_wordLength, hl, hh]

/-- The lower end is nine tenths below the least machine integer, and is cut off to it. -/
theorem range_exact_least :
    let d : Decimal := ⟨-92233720368547758089, 1⟩
    let low : Value := .decimal d
    let high : Value := .int (-9223372036854775807)
    low.Denotes d.value ∧ high.Denotes ((-9223372036854775807 : Int64).toInt : ℚ) ∧ d.Rescales
      ∧ (-d.scale).toInt = -d.scale.toInt
      ∧ ∃ ns : List Int64, apply {} .range [low, high] = .ok (.list (ns.map .int))
        ∧ IsInterval (-9223372036854775808) (-9223372036854775807) ns := by
  intro d low high
  have hlow : low.Denotes d.value := .decimal d
  have hhigh : high.Denotes ((-9223372036854775807 : Int64).toInt : ℚ) := .int _
  obtain ⟨-, hfits, hscale, -⟩ := range_exact {} hlow hhigh
  have hleast : truncated d.value = -9223372036854775808 := by
    rw [← Decimal.wholePart_eq]
    decide
  have hnext : truncated ((-9223372036854775807 : Int64).toInt : ℚ) = -9223372036854775807 := by
    rw [truncated_intCast]
    decide
  rw [hleast, hnext] at hfits
  have hrescales : d.Rescales := by decide
  have hfit : FitsInt64 ((-9223372036854775808 : ℤ) : ℚ)
      ∧ FitsInt64 ((-9223372036854775807 : ℤ) : ℚ) := by
    unfold FitsInt64
    norm_num
  exact ⟨hlow, hhigh, hrescales, (hscale d (.inl rfl) hrescales).1,
    ((hfits hfit).2 (by decide)).2 (by decide)⟩

end TableQuery.Builtin
