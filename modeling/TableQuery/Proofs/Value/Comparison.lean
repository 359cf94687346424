import TableQuery.Proofs.Value.Stored
import TableQuery.Value.Arith

/-!
# Laws of comparisons

Every comparison of two values has an answer or fails because the two have no order, and which of
both is seen from their kinds. Equality always has an answer and is an equivalence, however deeply
lists and maps are nested. Two numbers or two strings stand in exactly one of `<`, `=` and `>`, and
`<` is transitive.
-/

namespace TableQuery

/-- The error with the two values that cannot be compared exchanged. -/
def QueryError.exchanged : QueryError → QueryError
  | .notComparable a b => .notComparable b a
  | e => e

/-- A comparison other than `^=` holds of two values in this order. -/
def Comparison.admits : Comparison → Ordering → Bool
  | .eq => Ordering.isEq
  | .ne => Ordering.isNe
  | .lt => Ordering.isLT
  | .le => Ordering.isLE
  | .gt => Ordering.isGT
  | .ge => Ordering.isGE
  | .beginsWith => fun _ => false

/-- A decimal is the same as itself. -/
lemma Decimal.same_self (x : Decimal) : x.same x = true :=
  same_iff.2 rfl

namespace Value

/-- An integer or a decimal. -/
def IsNumber (v : Value) : Prop :=
  ∃ q, v.Denotes q

/-- A string. -/
def IsString (v : Value) : Prop :=
  ∃ s, v = .string s

/-- Two numbers or two strings. -/
def Comparable (a b : Value) : Prop :=
  a.IsNumber ∧ b.IsNumber ∨ a.IsString ∧ b.IsString

/-- The comparison of two values has the answer that it holds. -/
def Holds (op : Comparison) (a b : Value) : Prop :=
  compare op a b = .ok true

/-- The comparison fails because the two values cannot be compared so. -/
def Refuses (op : Comparison) (a b : Value) : Prop :=
  compare op a b = .error (.notComparable a b)

variable {a b c : Value} {op : Comparison}

/-- Values can be compared exactly if they have an order. -/
lemma comparable_iff : a.Comparable b ↔ ∃ o, a.order? b = some o := by
  simp only [order?_eq_some_iff]
  constructor
  · rintro (⟨⟨x, ha⟩, y, hb⟩ | ⟨⟨s, ha⟩, t, hb⟩)
    · exact ⟨_, .inl ⟨x, y, ha, hb, rfl⟩⟩
    · exact ⟨_, .inr ⟨s, t, ha, hb, rfl⟩⟩
  · rintro ⟨_, ⟨x, y, ha, hb, -⟩ | ⟨s, t, ha, hb, -⟩⟩
    · exact .inl ⟨⟨x, ha⟩, y, hb⟩
    · exact .inr ⟨⟨s, ha⟩, t, hb⟩

/-- What a value can be compared with is a number or a string. -/
lemma isScalar_of_comparable (h : a.Comparable b) : b.IsScalar := by
  rcases h with ⟨-, q, hb⟩ | ⟨-, hb⟩
  · obtain ⟨x, hx, -⟩ := denotes_iff.1 hb
    exact .inl ⟨x, hx⟩
  · exact .inr hb

/-- The order of two values decides every comparison of them but `^=`. -/
lemma compare_of_order? {o : Ordering} (hop : op ≠ .beginsWith) (h : a.order? b = some o) :
    compare op a b = .ok (op.admits o) := by
  have same : a.same b = o.isEq := by
    rw [same_eq_order? (isScalar_of_comparable (comparable_iff.2 ⟨o, h⟩)), h]
    cases o <;> rfl
  cases op with
  | eq => rw [compare, compare?, same]; rfl
  | ne => rw [compare, compare?, same]; cases o <;> rfl
  | beginsWith => exact absurd rfl hop
  | lt | le | gt | ge => rw [compare, compare?, h]; rfl

/-- A comparison of two values that have an order holds if it admits the order. -/
lemma holds_iff_of_order? {o : Ordering} (hop : op ≠ .beginsWith) (h : a.order? b = some o) :
    Holds op a b ↔ op.admits o = true := by
  rw [Holds, compare_of_order? hop h, Except.ok.injEq]

/-- A value is less than another if that is their order. -/
lemma holds_lt_iff : Holds .lt a b ↔ a.order? b = some .lt := by
  cases h : a.order? b with
  | none =>
    rw [Holds, compare, compare?, h]
    constructor
    · rintro ⟨⟩
    · rintro ⟨⟩
  | some o =>
    have hlt : Comparison.lt ≠ .beginsWith := by rintro ⟨⟩
    rw [holds_iff_of_order? hlt h]
    cases o <;> decide

/-- The comparisons by order fail exactly for values without one. -/
lemma refuses_iff (hop : op ∈ [Comparison.lt, .le, .gt, .ge]) :
    Refuses op a b ↔ ¬ a.Comparable b := by
  have hne : op ≠ .beginsWith := by
    rintro rfl
    exact absurd hop (by decide)
  rw [comparable_iff]
  cases h : a.order? b with
  | some o =>
    rw [Refuses, compare_of_order? hne h]
    constructor
    · rintro ⟨⟩
    · intro hnone
      exact absurd ⟨o, rfl⟩ hnone
  | none =>
    constructor
    · rintro - ⟨o, ⟨⟩⟩
    · intro _
      simp only [List.mem_cons, List.not_mem_nil, or_false] at hop
      rcases hop with rfl | rfl | rfl | rfl <;> (rw [Refuses, compare, compare?, h]; rfl)

/-- The values of `^=` cannot be compared unless both are strings. -/
lemma refuses_beginsWith_iff : Refuses .beginsWith a b ↔ ¬ (a.IsString ∧ b.IsString) := by
  unfold Refuses compare compare?
  cases a <;> cases b <;> simp [string?, IsString]

/-- A comparison has an answer or refuses its two values. -/
lemma exists_eq_ok_of_not_refuses (h : ¬ Refuses op a b) : ∃ r, compare op a b = .ok r := by
  unfold Refuses at h
  unfold compare at h ⊢
  split
  next r _ => exact ⟨r, rfl⟩
  next hnone =>
    rw [hnone] at h
    exact absurd rfl h

section Equivalence

mutual

/-- A value is the same as itself. -/
lemma same_refl : ∀ a : Value, a.same a = true
  | .string _ | .bool _ | .stored _ => beq_self_eq_true _
  | .null => rfl
  | .int n => Decimal.same_self (.ofInt n.toInt)
  | .decimal d => Decimal.same_self d
  | .list as => sameAll_refl as
  | .map as => sameFields_refl as

/-- The elements of a list are the same as themselves. -/
lemma sameAll_refl : ∀ as : List Value, sameAll as as = true
  | [] => rfl
  | a :: as => by rw [sameAll, same_refl a, sameAll_refl as]; rfl

/-- The fields of a map are the same as themselves. -/
lemma sameFields_refl : ∀ as : List (String × Value), sameFields as as = true
  | [] => rfl
  | (k, a) :: as => by rw [sameFields, beq_self_eq_true, same_refl a, sameFields_refl as]; rfl

end

/-- What is the same as a number denotes the same number. -/
lemma same_iff_denotes {q : ℚ} (ha : a.Denotes q) : a.same b = true ↔ b.Denotes q := by
  obtain ⟨x, hx, rfl⟩ := denotes_iff.1 ha
  constructor
  · intro h
    have hb := isSome_decimal?_of_same h
    rw [hx] at hb
    obtain ⟨y, hy⟩ := Option.isSome_iff_exists.1 hb.symm
    have hxy : x.same y = true := by
      cases a <;> cases hx <;> cases b <;> cases hy <;> exact h
    exact denotes_iff.2 ⟨y, hy, (Decimal.same_iff.1 hxy).symm⟩
  · intro hb
    obtain ⟨y, hy, hvalue⟩ := denotes_iff.1 hb
    exact same_of_decimal? hx hy hvalue

/-- Of three numbers the outer ones are the same if each is the same as the next. -/
lemma same_trans_of_denotes {q : ℚ} (ha : a.Denotes q) (hab : a.same b = true)
    (hbc : b.same c = true) : a.same c = true :=
  (same_iff_denotes ha).2 ((same_iff_denotes ((same_iff_denotes ha).1 hab)).1 hbc)

mutual

/-- Values that are the same as one are the same. -/
lemma same_trans : ∀ {a b c : Value}, a.same b = true → b.same c = true → a.same c = true
  | .int n, _, _, hab, hbc => same_trans_of_denotes (.int n) hab hbc
  | .decimal d, _, _, hab, hbc => same_trans_of_denotes (.decimal d) hab hbc
  | .string _, b, _, hab, hbc | .bool _, b, _, hab, hbc | .stored _, b, _, hab, hbc => by
    cases b with
    | string _ | bool _ | stored _ => first | cases beq_iff_eq.1 hab; exact hbc | cases hab
    | _ => cases hab
  | .null, b, _, hab, hbc => by
    cases b with
    | null => exact hbc
    | _ => cases hab
  | .list as, b, c, hab, hbc => by
    cases b with
    | list bs =>
      cases c with
      | list cs => exact sameAll_trans hab hbc
      | _ => cases hbc
    | _ => cases hab
  | .map as, b, c, hab, hbc => by
    cases b with
    | map bs =>
      cases c with
      | map cs => exact sameFields_trans hab hbc
      | _ => cases hbc
    | _ => cases hab

/-- Lists that are element by element the same as one are the same. -/
lemma sameAll_trans : ∀ {as bs cs : List Value},
    sameAll as bs = true → sameAll bs cs = true → sameAll as cs = true
  | [], [], _, _, h => h
  | _ :: _, _ :: _, [], _, h => by cases h
  | a :: as, b :: bs, c :: cs, hab, hbc => by
    rw [sameAll, Bool.and_eq_true] at hab hbc ⊢
    exact ⟨same_trans hab.1 hbc.1, sameAll_trans hab.2 hbc.2⟩

/-- Maps that are field by field the same as one are the same. -/
lemma sameFields_trans : ∀ {as bs cs : List (String × Value)},
    sameFields as bs = true → sameFields bs cs = true → sameFields as cs = true
  | [], [], _, _, h => h
  | _ :: _, _ :: _, [], _, h => by cases h
  | (k, a) :: as, (l, b) :: bs, (m, c) :: cs, hab, hbc => by
    rw [sameFields, Bool.and_eq_true, Bool.and_eq_true, beq_iff_eq] at hab hbc ⊢
    obtain ⟨⟨rfl, hab⟩, habs⟩ := hab
    obtain ⟨⟨rfl, hbc⟩, hbcs⟩ := hbc
    exact ⟨⟨rfl, same_trans hab hbc⟩, sameFields_trans habs hbcs⟩

end

/-- Two values are equal if they are the same. -/
lemma holds_eq_iff : Holds .eq a b ↔ a.same b = true := by
  rw [Holds, compare, compare?, Except.ok.injEq]

/-- Equality is an equivalence on all values. -/
lemma equivalence_holds_eq : Equivalence (Holds .eq) where
  refl a := holds_eq_iff.2 (same_refl a)
  symm h := holds_eq_iff.2 (same_comm _ _ ▸ holds_eq_iff.1 h)
  trans hab hbc := holds_eq_iff.2 (same_trans (holds_eq_iff.1 hab) (holds_eq_iff.1 hbc))

end Equivalence

/-- Exactly one of `<`, `=` and `>` holds of two values that have an order. -/
lemma existsUnique_holds (h : a.Comparable b) :
    ∃! op, op ∈ [Comparison.lt, .eq, .gt] ∧ Holds op a b := by
  obtain ⟨o, ho⟩ := comparable_iff.1 h
  have hholds : ∀ op ∈ [Comparison.lt, .eq, .gt], Holds op a b ↔ op.admits o = true := by
    intro op hop
    apply holds_iff_of_order? _ ho
    rintro rfl
    exact absurd hop (by decide)
  have hunique : ∃! op, op ∈ [Comparison.lt, .eq, .gt] ∧ op.admits o = true := by
    cases o with
    | lt => exact ⟨.lt, by decide, fun op => by cases op <;> decide⟩
    | eq => exact ⟨.eq, by decide, fun op => by cases op <;> decide⟩
    | gt => exact ⟨.gt, by decide, fun op => by cases op <;> decide⟩
  exact (existsUnique_congr fun op => and_congr_right (hholds op)).2 hunique

/-- `<=` and `>=` are the unions of `=` with `<` and with `>`. -/
lemma holds_union {strict : Comparison} (hop : ∀ o, op.admits o = (strict.admits o || o.isEq))
    (hne : op ≠ .beginsWith) (hstrict : strict ≠ .beginsWith) (h : a.Comparable b) :
    Holds op a b ↔ Holds strict a b ∨ Holds .eq a b := by
  obtain ⟨o, ho⟩ := comparable_iff.1 h
  have heq : Comparison.eq ≠ .beginsWith := nofun
  rw [holds_iff_of_order? hne ho, holds_iff_of_order? hstrict ho, holds_iff_of_order? heq ho, hop,
    Bool.or_eq_true]
  rfl

/-- A value that is less than one that is less than a third is less than that. -/
lemma holds_lt_trans (hab : Holds .lt a b) (hbc : Holds .lt b c) : Holds .lt a c := by
  rw [holds_lt_iff, order?_eq_some_iff] at *
  -- the value in the middle is a number or a string, but not both
  rcases hab with ⟨x, y, ha, hb, hxy⟩ | ⟨s, t, ha, rfl, hst⟩
  · rcases hbc with ⟨y', z, hb', hc, hyz⟩ | ⟨_, _, rfl, -, -⟩
    · obtain rfl := hb.unique hb'
      rw [compare_lt_iff_lt] at hxy hyz
      exact .inl ⟨x, z, ha, hc, compare_lt_iff_lt.2 (hxy.trans hyz)⟩
    · cases hb
  · rcases hbc with ⟨_, _, hb, -, -⟩ | ⟨t', u, ht, hc, htu⟩
    · cases hb
    · cases ht
      exact .inr ⟨s, u, ha, hc, Std.TransCmp.lt_trans hst htu⟩

/-- A comparison with its operands exchanged has the answer of the exchanged comparison, or fails
with the same two values exchanged. -/
lemma compare_exchanged {turned : Comparison} (h : op.exchanged? = some turned) (a b : Value) :
    compare turned b a = (compare op a b).mapError QueryError.exchanged := by
  rw [compare, compare, compare?_exchanged h]
  cases compare? op a b <;> rfl

/-- The comparisons by order take two numbers or two strings and fail for all else, `^=` takes two
strings, and equality takes any values. Equality is an equivalence. Of two values that have an order
exactly one of `<`, `=` and `>` holds, `<=` and `>=` hold if one of two of these does, and `<` is
transitive. Every comparison but `^=` can be exchanged with its operands. -/
theorem comparison_laws :
    (∀ op ∈ [Comparison.lt, .le, .gt, .ge], ∀ a b, (Refuses op a b ↔ ¬ a.Comparable b)
      ∧ (a.Comparable b → ∃ r, compare op a b = .ok r))
    ∧ (∀ a b, (Refuses .beginsWith a b ↔ ¬ (a.IsString ∧ b.IsString))
      ∧ (a.IsString ∧ b.IsString → ∃ r, compare .beginsWith a b = .ok r))
    ∧ (∀ a b, ∃ r, compare .eq a b = .ok r ∧ compare .ne a b = .ok !r)
    ∧ Equivalence (Holds .eq)
    ∧ (∀ a b, a.Comparable b → (∃! op, op ∈ [Comparison.lt, .eq, .gt] ∧ Holds op a b)
      ∧ (Holds .le a b ↔ Holds .lt a b ∨ Holds .eq a b)
      ∧ (Holds .ge a b ↔ Holds .gt a b ∨ Holds .eq a b))
    ∧ (∀ a b c, Holds .lt a b → Holds .lt b c → Holds .lt a c)
    ∧ ∀ op, (op.exchanged? = none ↔ op = .beginsWith)
      ∧ ∀ turned, op.exchanged? = some turned →
        ∀ a b, compare turned b a = (compare op a b).mapError QueryError.exchanged := by
  refine ⟨fun op hop a b => ⟨refuses_iff hop, fun h => ?_⟩,
    fun a b => ⟨refuses_beginsWith_iff, fun h => ?_⟩, fun a b => ⟨a.same b, rfl, rfl⟩,
    equivalence_holds_eq, fun a b h => ⟨existsUnique_holds h, ?_, ?_⟩,
    fun a b c => holds_lt_trans, fun op => ⟨?_, fun turned => compare_exchanged⟩⟩
  · apply exists_eq_ok_of_not_refuses
    rw [refuses_iff hop]
    exact not_not_intro h
  · apply exists_eq_ok_of_not_refuses
    rw [refuses_beginsWith_iff]
    exact not_not_intro h
  · exact holds_union (fun o => by cases o <;> rfl) nofun nofun h
  · exact holds_union (fun o => by cases o <;> rfl) nofun nofun h
  · cases op <;> decide

/-- The largest machine integer is below its successor, and that below 10 to the power of 19. -/
theorem comparison_laws_mixed :
    let a : Value := .int 9223372036854775807
    let b : Value := .decimal ⟨92233720368547758080, 1⟩
    let c : Value := .decimal ⟨1, -19⟩
    Holds .lt a b ∧ Holds .lt b c ∧ Holds .lt a c ∧ a.Comparable b
      ∧ (∃! op, op ∈ [Comparison.lt, .eq, .gt] ∧ Holds op a b)
      ∧ Refuses .lt a (.string "1") ∧ Comparison.lt.exchanged? = some .gt
      ∧ compare .gt b a = (compare .lt a b).mapError QueryError.exchanged := by
  intro a b c
  obtain ⟨hrefuses, -, -, -, hcomparable, htrans, hexchanged⟩ := comparison_laws
  have hab : Holds .lt a b := holds_lt_iff.2 (by decide +kernel)
  have hbc : Holds .lt b c := holds_lt_iff.2 (by decide +kernel)
  have hcomp : a.Comparable b := .inl ⟨⟨_, .int _⟩, _, .decimal _⟩
  have hstring : ¬ Comparable (.int 9223372036854775807) (.string "1") := by
    rintro (⟨-, _, ⟨⟩⟩ | ⟨⟨_, ⟨⟩⟩, -⟩)
  exact ⟨hab, hbc, htrans a b c hab hbc, hcomp, (hcomparable a b hcomp).1,
    (hrefuses .lt (by decide) a (.string "1")).1.2 hstring, rfl,
    (hexchanged .lt).2 .gt rfl a b⟩

end Value

end TableQuery
