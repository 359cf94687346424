import TableQuery.Proofs.Stored.Rank

/-!
# The order of rows

Two rows are compared by their partition keys and then by their sort keys, and the other way round
the result is the reverse. But keys that cannot be compared count as equal, and a key that is equal
to two others in this way may stand between them although they are in the other order. So three rows
can be in order one after the other and the first behind the third, exactly where such a key is
among theirs. Rows whose keys can all be compared are in order after sorting.
-/

namespace TableQuery

namespace Stored

variable {v w : Stored} {r s : KeyRank} {o : Ordering}

/-- Two values are of one type that keys can have, and those that are numbers can be read. -/
def Comparable (v w : Stored) : Prop :=
  v.tag = w.tag ∧ v.rank?.isSome = true ∧ w.rank?.isSome = true

instance (v w : Stored) : Decidable (v.Comparable w) :=
  inferInstanceAs (Decidable (_ ∧ _ ∧ _))

/-- Two values can be compared in either order. -/
lemma Comparable.symm (h : v.Comparable w) : w.Comparable v :=
  ⟨h.1.symm, h.2.2, h.2.1⟩

/-- What can be compared with the same value can be compared. -/
lemma Comparable.trans {u : Stored} (huv : u.Comparable v) (hvw : v.Comparable w) :
    u.Comparable w :=
  ⟨huv.1.trans hvw.1, huv.2.1, hvw.2.2⟩

/-- Values that can be compared have ranks. -/
lemma Comparable.exists_ranks (h : v.Comparable w) :
    ∃ r s, v.rank? = some r ∧ w.rank? = some s := by
  obtain ⟨r, hr⟩ := Option.isSome_iff_exists.1 h.2.1
  obtain ⟨s, hs⟩ := Option.isSome_iff_exists.1 h.2.2
  exact ⟨r, s, hr, hs⟩

/-- Values that can be compared are compared by their ranks. -/
lemma Comparable.compares (h : v.Comparable w) (hr : v.rank? = some r) (hs : w.rank? = some s) :
    ∃ o, v.compareScalar? w = some o ∧ o.Compares r s := by
  have htag := h.1
  have haccepts : ∃ type : ScalarType, type.accepts v = true ∧ type.accepts w = true := by
    cases v with
    | string _ => cases w <;> cases htag; exact ⟨.string, rfl, rfl⟩
    | number _ => cases w <;> cases htag; exact ⟨.number, rfl, rfl⟩
    | binary _ => cases w <;> cases htag; exact ⟨.binary, rfl, rfl⟩
    | _ => cases hr
  obtain ⟨type, hv, hw⟩ := haccepts
  exact compares_rank hv hw hr hs

/-- A comparison that has a result is one of values that can be compared. -/
lemma comparable_of_compareScalar? (h : v.compareScalar? w = some o) : v.Comparable w := by
  unfold compareScalar? at h
  split at h
  next => exact ⟨rfl, rfl, rfl⟩
  next =>
    obtain ⟨c, hc, h⟩ := Option.bind_eq_some_iff.1 h
    obtain ⟨d, hd, -⟩ := Option.bind_eq_some_iff.1 h
    refine ⟨rfl, ?_, ?_⟩
    · rw [rank?, hc]
      rfl
    · rw [rank?, hd]
      rfl
  next => exact ⟨rfl, rfl, rfl⟩
  next => cases h

end Stored

namespace ResultSet

variable {u v w : Option Stored}

/-- Two keys are there and cannot be compared. -/
def Clash : Option Stored → Option Stored → Prop
  | some x, some y => ¬ x.Comparable y
  | _, _ => False

instance : (u v : Option Stored) → Decidable (Clash u v)
  | some x, some y => inferInstanceAs (Decidable (¬ x.Comparable y))
  | some _, none => isFalse id
  | none, _ => isFalse id

/-- Keys that cannot be compared count as equal. -/
lemma compareKey_of_clash (h : Clash u v) : compareKey u v = .eq := by
  cases u with
  | none => exact h.elim
  | some x =>
    cases v with
    | none => exact h.elim
    | some y =>
      have hnone : x.compareScalar? y = none := by
        rw [Option.eq_none_iff_forall_ne_some]
        exact fun o ho => h (Stored.comparable_of_compareScalar? ho)
      rw [compareKey, hnone]
      rfl

/-- Keys that can be compared are compared by their ranks. -/
lemma compares_compareKey {x y : Stored} {r s : KeyRank} (h : x.Comparable y)
    (hr : x.rank? = some r) (hs : y.rank? = some s) :
    (compareKey (some x) (some y)).Compares r s := by
  obtain ⟨o, ho, hcompares⟩ := h.compares hr hs
  rw [compareKey, ho]
  exact hcompares

/-- Keys that are compared the other way round have the reverse order. -/
lemma compareKey_swap (u v : Option Stored) : compareKey v u = (compareKey u v).swap := by
  cases u with
  | none => cases v <;> rfl
  | some x =>
    cases v with
    | none => rfl
    | some y =>
      by_cases h : x.Comparable y
      · obtain ⟨r, s, hr, hs⟩ := h.exists_ranks
        apply (compares_compareKey h.symm hs hr).inj
        rw [Ordering.compares_swap]
        exact compares_compareKey h hr hs
      · have hclash : Clash (some x) (some y) := h
        have hclash' : Clash (some y) (some x) := fun hyx => h hyx.symm
        rw [compareKey_of_clash hclash, compareKey_of_clash hclash']
        rfl

/-- If keys are in order round a circle and two that follow each other are not equal, then the third
cannot be compared with either. -/
lemma clash_of_circle (huv : compareKey u v = .lt) (hvw : compareKey v w ≠ .gt)
    (hwu : compareKey w u ≠ .gt) : Clash v w ∧ Clash w u := by
  cases u with
  | none => cases v <;> cases huv
  | some x =>
    cases w with
    | none => exact absurd rfl hwu
    | some z =>
      cases v with
      | none => exact absurd rfl hvw
      | some y =>
        have hxy : x.Comparable y := by
          by_contra h
          have hclash : Clash (some x) (some y) := h
          rw [compareKey_of_clash hclash] at huv
          cases huv
        have hyz : ¬ y.Comparable z := by
          intro h
          obtain ⟨r, s, hr, hs⟩ := hxy.exists_ranks
          obtain ⟨-, t, -, ht⟩ := h.exists_ranks
          have hlt : r < s := (compares_compareKey hxy hr hs).eq_lt.1 huv
          have hle : s ≤ t := (compares_compareKey h hs ht).ne_gt.1 hvw
          have hle' : t ≤ r := (compares_compareKey (hxy.trans h).symm ht hr).ne_gt.1 hwu
          exact absurd (hlt.trans_le (hle.trans hle')) (lt_irrefl r)
        exact ⟨hyz, fun h => hyz (hxy.symm.trans h.symm)⟩

/-- Keys that cannot be compared are in order. -/
lemma compareKey_ne_gt_of_clash (h : Clash u v) : compareKey u v ≠ .gt := by
  rw [compareKey_of_clash h]
  nofun

/-- Two things are in order by a first criterion, or are equal by it and in order by a second. -/
lemma then_ne_gt_iff {o o' : Ordering} : o.then o' ≠ .gt ↔ o = .lt ∨ o = .eq ∧ o' ≠ .gt := by
  cases o with
  | lt => exact iff_of_true nofun (.inl rfl)
  | eq => exact ⟨fun h => .inr ⟨rfl, h⟩, fun h => h.elim nofun And.right⟩
  | gt => exact iff_of_false (absurd rfl) (Or.rec nofun nofun)

/-- The keys of a row, each if the row has it. -/
structure RowKeys where
  partition : Option Stored
  sort : Option Stored

namespace RowKeys

/-- The keys of an item. -/
def ofItem (keys : KeySchema) (item : Item) : RowKeys where
  partition := Fields.get? keys.partitionKey.name item
  sort := keys.sortKey.bind fun key => Fields.get? key.name item

/-- The order of two rows by their keys. -/
def compare (a b : RowKeys) : Ordering :=
  (compareKey a.partition b.partition).then (compareKey a.sort b.sort)

/-- The partition keys or the sort keys of two rows cannot be compared. -/
def Clashes (a b : RowKeys) : Prop :=
  Clash a.partition b.partition ∨ Clash a.sort b.sort

instance (a b : RowKeys) : Decidable (a.Clashes b) :=
  inferInstanceAs (Decidable (_ ∨ _))

/-- Three rows of which one has a key that cannot be compared, so that the first two and the last
two are in order but the first is behind the third. -/
inductive Breaks (a b c : RowKeys) : Prop
  /-- the first is behind the third by its partition key, with which the second has no order -/
  | partition : compareKey c.partition a.partition = .lt →
    Clash a.partition b.partition → Clash b.partition c.partition →
    compareKey a.sort b.sort ≠ .gt → compareKey b.sort c.sort ≠ .gt → Breaks a b c
  /-- the first is behind the third by its sort key, with which the second has no order -/
  | sort : compareKey a.partition b.partition = .eq → compareKey b.partition c.partition = .eq →
    compareKey c.partition a.partition = .eq → compareKey c.sort a.sort = .lt →
    Clash a.sort b.sort → Clash b.sort c.sort → Breaks a b c
  /-- the first two are in order by their partition keys, but with that of the third these have no
  order, and by its sort key the first is behind it -/
  | third : compareKey a.partition b.partition = .lt → Clash b.partition c.partition →
    Clash c.partition a.partition → compareKey b.sort c.sort ≠ .gt →
    compareKey c.sort a.sort = .lt → Breaks a b c
  /-- the last two are in order by their partition keys, but with that of the first these have no
  order, and by its sort key it is behind the third -/
  | first : compareKey b.partition c.partition = .lt → Clash c.partition a.partition →
    Clash a.partition b.partition → compareKey a.sort b.sort ≠ .gt →
    compareKey c.sort a.sort = .lt → Breaks a b c

variable {a b c : RowKeys}

/-- Rows that are compared the other way round have the reverse order. -/
lemma compare_swap (a b : RowKeys) : b.compare a = (a.compare b).swap := by
  rw [compare, compareKey_swap a.partition, compareKey_swap a.sort, compare, Ordering.swap_then]

/-- A row is behind another by its partition key, or else by its sort key. -/
lemma compare_eq_gt_iff : a.compare c = .gt ↔ compareKey c.partition a.partition = .lt
    ∨ compareKey c.partition a.partition = .eq ∧ compareKey c.sort a.sort = .lt := by
  rw [compare_swap, Ordering.swap_eq_gt, compare, Ordering.then_eq_lt]

/-- Rows that are in order have partition keys that are. -/
lemma partition_ne_gt (h : a.compare b ≠ .gt) : compareKey a.partition b.partition ≠ .gt := by
  intro hgt
  rw [compare, hgt] at h
  exact h rfl

/-- Rows that are in order and have equal partition keys have sort keys that are in order. -/
lemma sort_ne_gt (h : a.compare b ≠ .gt) (heq : compareKey a.partition b.partition = .eq) :
    compareKey a.sort b.sort ≠ .gt := by
  rwa [compare, heq] at h

/-- In every circle of keys that are in order, one cannot be compared with the two others. Which one
it is follows from where the circle of rows has a step that is not between equal keys. -/
lemma breaks_of_compare (hab : a.compare b ≠ .gt) (hbc : b.compare c ≠ .gt)
    (hac : a.compare c = .gt) : Breaks a b c := by
  have pab := partition_ne_gt hab
  have pbc := partition_ne_gt hbc
  rcases compare_eq_gt_iff.1 hac with hca | ⟨hca, sca⟩
  · obtain ⟨cab, cbc⟩ := clash_of_circle hca pab pbc
    exact .partition hca cab cbc (sort_ne_gt hab (compareKey_of_clash cab))
      (sort_ne_gt hbc (compareKey_of_clash cbc))
  · have pca : compareKey c.partition a.partition ≠ .gt := by
      rw [hca]
      nofun
    cases hpab : compareKey a.partition b.partition with
    | gt => exact absurd hpab pab
    | lt =>
      obtain ⟨cbc, cca⟩ := clash_of_circle hpab pbc pca
      exact .third hpab cbc cca (sort_ne_gt hbc (compareKey_of_clash cbc)) sca
    | eq =>
      have sab := sort_ne_gt hab hpab
      cases hpbc : compareKey b.partition c.partition with
      | gt => exact absurd hpbc pbc
      | lt =>
        obtain ⟨cca, cab⟩ := clash_of_circle hpbc pca pab
        exact .first hpbc cca cab sab sca
      | eq =>
        obtain ⟨cab, cbc⟩ := clash_of_circle sca sab (sort_ne_gt hbc hpbc)
        exact .sort hpab hpbc hca sca cab cbc

/-- Three such rows are in order one after the other, and the first is behind the third. -/
lemma Breaks.not_trans (h : Breaks a b c) :
    a.compare b ≠ .gt ∧ b.compare c ≠ .gt ∧ a.compare c = .gt := by
  rw [compare_eq_gt_iff, compare, compare, then_ne_gt_iff, then_ne_gt_iff]
  cases h with
  | partition hca cab cbc sab sbc =>
    exact ⟨.inr ⟨compareKey_of_clash cab, sab⟩, .inr ⟨compareKey_of_clash cbc, sbc⟩, .inl hca⟩
  | sort pab pbc pca sca cab cbc =>
    exact ⟨.inr ⟨pab, compareKey_ne_gt_of_clash cab⟩, .inr ⟨pbc, compareKey_ne_gt_of_clash cbc⟩,
      .inr ⟨pca, sca⟩⟩
  | third pab cbc cca sbc sca =>
    exact ⟨.inl pab, .inr ⟨compareKey_of_clash cbc, sbc⟩, .inr ⟨compareKey_of_clash cca, sca⟩⟩
  | first pbc cca cab sab sca =>
    exact ⟨.inr ⟨compareKey_of_clash cab, sab⟩, .inl pbc, .inr ⟨compareKey_of_clash cca, sca⟩⟩

/-- The order of rows is transitive but for such keys. -/
lemma breaks_iff :
    (a.compare b ≠ .gt ∧ b.compare c ≠ .gt ∧ a.compare c = .gt) ↔ Breaks a b c :=
  ⟨fun ⟨hab, hbc, hac⟩ => breaks_of_compare hab hbc hac, Breaks.not_trans⟩

/-- Of three such rows two that follow each other have keys that cannot be compared. -/
lemma Breaks.clashes (h : Breaks a b c) : a.Clashes b ∨ b.Clashes c := by
  cases h with
  | partition _ hab => exact .inl (.inl hab)
  | sort _ _ _ _ hab => exact .inl (.inr hab)
  | third _ hbc => exact .inr (.inl hbc)
  | first _ _ hab => exact .inl (.inl hab)

end RowKeys

/-- Items are compared by their keys alone. -/
lemma compareItems_eq (keys : KeySchema) (a b : Item) :
    compareItems keys a b = (RowKeys.ofItem keys a).compare (RowKeys.ofItem keys b) := by
  unfold compareItems RowKeys.ofItem RowKeys.compare
  cases keys.sortKey <;> rfl

/-- Items that are compared the other way round have the reverse order. -/
lemma compareItems_swap (keys : KeySchema) (a b : Item) :
    compareItems keys b a = (compareItems keys a b).swap := by
  rw [compareItems_eq, compareItems_eq, RowKeys.compare_swap]

/-- All keys in the rows can be compared. -/
def KeysComparable (rs : ResultSet) : Prop :=
  ∀ a ∈ rs.rows, ∀ b ∈ rs.rows, ¬ (RowKeys.ofItem rs.schema.primary a.item).Clashes
    (RowKeys.ofItem rs.schema.primary b.item)

instance (rs : ResultSet) : Decidable rs.KeysComparable :=
  inferInstanceAs (Decidable (∀ a ∈ rs.rows, ∀ b ∈ rs.rows, ¬ _))

/-- The order of rows is transitive where all keys can be compared. -/
lemma KeysComparable.trans {rs : ResultSet} (h : rs.KeysComparable) {a b c : Row}
    (ha : a ∈ rs.rows) (hb : b ∈ rs.rows) (hc : c ∈ rs.rows)
    (hab : compareItems rs.schema.primary a.item b.item ≠ .gt)
    (hbc : compareItems rs.schema.primary b.item c.item ≠ .gt) :
    compareItems rs.schema.primary a.item c.item ≠ .gt := by
  intro hac
  rw [compareItems_eq] at hab hbc hac
  rcases (RowKeys.breaks_of_compare hab hbc hac).clashes with hclash | hclash
  · exact h a ha b hb hclash
  · exact h b hb c hc hclash

/-- Where all keys can be compared, each row is in order with all behind it after sorting. -/
lemma KeysComparable.pairwise_sort {rs : ResultSet} (h : rs.KeysComparable) :
    rs.sort.rows.Pairwise fun a b => compareItems rs.schema.primary a.item b.item ≠ .gt := by
  -- the order is transitive only among the rows, so these are sorted as a type of their own
  let le (a b : Row) : Bool := compareItems rs.schema.primary a.item b.item != .gt
  let leRows (a b : { row // row ∈ rs.rows }) : Bool := le a.1 b.1
  have hsort : rs.sort.rows = (rs.rows.attach.mergeSort leRows).map Subtype.val := by
    have hmap := List.map_mergeSort (r := leRows) (s := le) (l := rs.rows.attach)
      fun _ _ _ _ => rfl
    rw [List.attach_map_subtype_val] at hmap
    exact hmap.symm
  have hpairwise : (rs.rows.attach.mergeSort leRows).Pairwise fun a b => leRows a b = true := by
    apply List.pairwise_mergeSort
    · intro a b c hab hbc
      exact bne_iff_ne.2 (h.trans a.2 b.2 c.2 (bne_iff_ne.1 hab) (bne_iff_ne.1 hbc))
    · intro a b
      show (compareItems rs.schema.primary a.1.item b.1.item != .gt
        || compareItems rs.schema.primary b.1.item a.1.item != .gt) = true
      rw [compareItems_swap rs.schema.primary a.1.item]
      cases compareItems rs.schema.primary a.1.item b.1.item <;> rfl
  rw [hsort, List.pairwise_map]
  exact hpairwise.imp bne_iff_ne.1

/-- Comparing two items the other way round gives the reverse, and the order is transitive but for
keys that cannot be compared. So rows whose keys can all be compared are in order after sorting. -/
theorem compareItems_laws (keys : KeySchema) (a b c : Item) :
    compareItems keys b a = (compareItems keys a b).swap
    ∧ ((compareItems keys a b ≠ .gt ∧ compareItems keys b c ≠ .gt ∧ compareItems keys a c = .gt)
      ↔ (RowKeys.ofItem keys a).Breaks (RowKeys.ofItem keys b) (RowKeys.ofItem keys c))
    ∧ ∀ rs : ResultSet, rs.schema.primary = keys → rs.KeysComparable →
      rs.sort.rows.Pairwise fun a b => compareItems keys a.item b.item ≠ .gt := by
  refine ⟨compareItems_swap keys a b, ?_, ?_⟩
  · rw [compareItems_eq, compareItems_eq, compareItems_eq]
    exact RowKeys.breaks_iff
  · rintro rs rfl h
    exact h.pairwise_sort

/-- A text is equal to the number 5 and to the number 3, which are not in this order. -/
theorem compareItems_laws_mixed :
    let keys : KeySchema := ⟨⟨"id", .number⟩, none⟩
    let a : Item := [("id", .number "5")]
    let b : Item := [("id", .string "x")]
    let c : Item := [("id", .number "3")]
    let rs : ResultSet :=
      { schema := ⟨"t", keys, []⟩, rows := [{ item := [] }, { item := a }, { item := c }] }
    compareItems keys b a = (compareItems keys a b).swap
      ∧ (RowKeys.ofItem keys a).Breaks (RowKeys.ofItem keys b) (RowKeys.ofItem keys c)
      ∧ rs.sort.rows.Pairwise fun a b => compareItems keys a.item b.item ≠ .gt := by
  intro keys a b c rs
  obtain ⟨hswap, hbreaks, hsorted⟩ := compareItems_laws keys a b c
  exact ⟨hswap, hbreaks.1 (by decide), hsorted rs rfl (by decide)⟩

/-- The order of rows is not transitive. -/
theorem compareItems_circle :
    ¬ ∀ (keys : KeySchema) (a b c : Item), compareItems keys a b ≠ .gt →
      compareItems keys b c ≠ .gt → compareItems keys a c ≠ .gt := by
  intro htrans
  have h := htrans ⟨⟨"id", .number⟩, none⟩ [("id", .number "5")] [("id", .string "x")]
    [("id", .number "3")]
  exact h (by decide) (by decide) (by decide)

end ResultSet

end TableQuery
