import TableQuery.Proofs.Stored.Rank

/-!
# Sorting by key

Sorting moves rows and changes none. Where the keys have their declared types the rows are then in
the order of their ranks, and rows of one rank stand as they stood before. So sorted rows are not
moved again.
-/

namespace TableQuery.ResultSet

section MergeSort

variable {α β : Type} [LinearOrder β] (rank : α → β)

/-- Orders that agree on the elements of a list sort it in the same way. -/
lemma mergeSort_congr {r s : α → α → Bool} {l : List α} (h : ∀ a ∈ l, ∀ b ∈ l, r a b = s a b) :
    l.mergeSort r = l.mergeSort s := by
  have hmap := List.map_mergeSort (f := id) (s := s) h
  rwa [List.map_id, List.map_id] at hmap

/-- The order by ranks is transitive. -/
lemma decide_rank_trans (a b c : α) (hab : decide (rank a ≤ rank b) = true)
    (hbc : decide (rank b ≤ rank c) = true) : decide (rank a ≤ rank c) = true :=
  decide_eq_true ((of_decide_eq_true hab).trans (of_decide_eq_true hbc))

/-- The order by ranks is total. -/
lemma decide_rank_total (a b : α) :
    (decide (rank a ≤ rank b) || decide (rank b ≤ rank a)) = true := by
  rw [Bool.or_eq_true, decide_eq_true_iff, decide_eq_true_iff]
  exact le_total _ _

/-- A list that is sorted by ranks is in their order. -/
lemma pairwise_mergeSort_rank (l : List α) :
    (l.mergeSort fun a b => decide (rank a ≤ rank b)).Pairwise fun a b => rank a ≤ rank b := by
  have hsorted := List.pairwise_mergeSort (decide_rank_trans rank) (decide_rank_total rank) l
  exact hsorted.imp of_decide_eq_true

/-- The members of one rank are a list that is sorted already, so they stay in its order. -/
lemma filter_mergeSort_rank (l : List α) {r : β} {p : α → Bool}
    (hp : ∀ a, p a = true → rank a = r) :
    (l.mergeSort fun a b => decide (rank a ≤ rank b)).filter p = l.filter p := by
  have hsorted : (l.filter p).Pairwise fun a b => decide (rank a ≤ rank b) = true := by
    apply List.pairwise_of_forall_mem_list
    intro a ha b hb
    rw [hp a (List.mem_filter.1 ha).2, hp b (List.mem_filter.1 hb).2]
    exact decide_eq_true le_rfl
  have hsublist := List.sublist_mergeSort (decide_rank_trans rank) (decide_rank_total rank) hsorted
    List.filter_sublist
  have hfiltered := hsublist.filter p
  rw [List.filter_filter] at hfiltered
  simp only [Bool.and_self] at hfiltered
  symm
  apply hfiltered.eq_of_length
  exact ((List.mergeSort_perm l _).filter p).length_eq.symm

end MergeSort

/-- The rows `after` are the rows `before` in the order of their keys: by partition key and then by
sort key, rows without a key behind those that have it, and rows of equal keys as they stood. -/
structure InStoreOrder (keys : KeySchema) (before after : List Row) : Prop where
  ranked : after.Pairwise fun a b => keys.rank a.item ≤ keys.rank b.item
  withoutPartitionKey : after.Pairwise fun a b =>
    Fields.get? keys.partitionKey.name a.item = none →
      Fields.get? keys.partitionKey.name b.item = none
  withoutSortKey : ∀ key, keys.sortKey = some key → after.Pairwise fun a b =>
    keys.partitionKey.rank a.item = keys.partitionKey.rank b.item →
      Fields.get? key.name a.item = none → Fields.get? key.name b.item = none
  stable : ∀ rank, after.filter (fun row => keys.rank row.item = rank)
    = before.filter fun row => keys.rank row.item = rank

variable {rs : ResultSet}

/-- The keys in all rows have the types that are declared for them. -/
def KeysTyped (rs : ResultSet) : Prop :=
  ∀ row ∈ rs.rows, rs.schema.primary.Types row.item

instance (rs : ResultSet) : Decidable rs.KeysTyped :=
  inferInstanceAs (Decidable (∀ row ∈ rs.rows, rs.schema.primary.Types row.item))

/-- Where the keys have their types, the rows are sorted by their ranks. -/
lemma rows_sort (h : rs.KeysTyped) : rs.sort.rows = rs.rows.mergeSort fun a b =>
    decide (rs.schema.primary.rank a.item ≤ rs.schema.primary.rank b.item) := by
  apply mergeSort_congr
  intro a ha b hb
  rw [Bool.eq_iff_iff, bne_iff_ne, decide_eq_true_iff]
  exact (KeySchema.compares_rank (h a ha) (h b hb)).ne_gt

/-- The keys have their types after sorting as before. -/
lemma KeysTyped.sort (h : rs.KeysTyped) : rs.sort.KeysTyped := fun row hrow =>
  h row ((List.mergeSort_perm ..).mem_iff.1 hrow)

/-- Sorted rows are in the order of the store. -/
lemma inStoreOrder_sort (h : rs.KeysTyped) :
    InStoreOrder rs.schema.primary rs.rows rs.sort.rows := by
  have hranked := pairwise_mergeSort_rank (fun row : Row => rs.schema.primary.rank row.item) rs.rows
  rw [← rows_sort h] at hranked
  refine ⟨hranked, ?_, fun key hkey => ?_, fun rank => ?_⟩
  · apply hranked.imp_of_mem
    intro a b _ hb hle
    apply KeyAttribute.missing_of_rank_le (h.sort b hb).1
    exact KeySchema.partitionKey_le_of_rank_le hle
  · apply hranked.imp_of_mem
    intro a b _ hb hle hpartition
    apply KeyAttribute.missing_of_rank_le ((h.sort b hb).2 key hkey)
    exact KeySchema.sortKey_le_of_rank_le hkey hle hpartition
  · rw [rows_sort h]
    exact filter_mergeSort_rank (fun row : Row => rs.schema.primary.rank row.item) rs.rows
      fun row hrow => of_decide_eq_true hrow

/-- Rows in the order of their ranks are not moved. -/
lemma sort_sort (h : rs.KeysTyped) : rs.sort.sort = rs.sort := by
  have hrows : rs.sort.sort.rows = rs.sort.rows := by
    rw [rows_sort h.sort]
    apply List.mergeSort_of_pairwise
    exact (inStoreOrder_sort h).ranked.imp decide_eq_true
  show { rs.sort with rows := rs.sort.sort.rows } = rs.sort
  rw [hrows]

/-- Sorting moves whole rows. If their keys have the declared types, then the rows are afterwards in
the order of the store, and sorting them again changes nothing. -/
theorem sort_stable (rs : ResultSet) :
    rs.sort.rows.Perm rs.rows
      ∧ (rs.KeysTyped → InStoreOrder rs.schema.primary rs.rows rs.sort.rows
        ∧ rs.sort.sort = rs.sort) :=
  ⟨List.mergeSort_perm .., fun h => ⟨inStoreOrder_sort h, sort_sort h⟩⟩

/-- Two rows of the same number, one row without a sort key before one that has it, and one row
without any key. -/
theorem sort_stable_numbers :
    let schema : TableSchema := ⟨"t", ⟨⟨"p", .number⟩, some ⟨"s", .string⟩⟩, []⟩
    let rs : ResultSet := { schema, rows := [
      { item := [] },
      { item := [("p", .number "1.0")], flags := { marked := true } },
      { item := [("p", .number "1"), ("s", .string "é")] },
      { item := [("p", .number "1e0"), ("s", .string "é")], flags := { dirty := true } }] }
    rs.KeysTyped ∧ rs.sort.rows.Perm rs.rows ∧ InStoreOrder schema.primary rs.rows rs.sort.rows
      ∧ rs.sort.sort = rs.sort := by
  intro schema rs
  have htyped : rs.KeysTyped := by decide
  obtain ⟨hperm, hsorted⟩ := sort_stable rs
  exact ⟨htyped, hperm, hsorted htyped⟩

end TableQuery.ResultSet
