import Mathlib.Data.List.Forall2
import TableQuery.Proofs.Item.Writing
import TableQuery.Proofs.ResultSet.Operations

/-!
# Rows that are not dirty

A result set is run beside the items that its rows held when they were loaded or last saved. A row
that is not dirty should hold that item. This is so as long as no write to such a row breaks off.
After one that does, the row holds the maps that the write has left, and nothing tells that it was
edited.
-/

namespace TableQuery

/-- A result set with the item that each row held when it was loaded or last saved, if it was. -/
structure Tracked where
  set : ResultSet
  saved : List (Option Item)

/-- The maps in what an operation is given have their fields in order. -/
def Operation.Ordered : Operation → Prop
  | .setItems items => ∀ item ∈ items, item.Ordered
  | .add item => item.Ordered
  | .setValue _ _ value => value.Ordered
  | _ => True

/-- An operation writes to a row that is not dirty, and the write breaks off. -/
def ResultSet.BreaksOff (rs : ResultSet) (op : Operation) : Prop :=
  ∃ index path value row, op = .setValue index path value ∧ rs.readOnly = false
    ∧ rs.rows[index]? = some row ∧ row.flags.dirty = false ∧ row.item.BreaksOff path

namespace Tracked

/-- The rows with their saved items, in the order of the sorted set. -/
def sorted (s : Tracked) : List (Row × Option Item) :=
  (s.set.rows.zip s.saved).mergeSort fun a b =>
    ResultSet.compareItems s.set.schema.primary a.1.item b.1.item != .gt

/-- The saved items after an operation: each goes with its row. -/
def savedAfter (s : Tracked) : Operation → List (Option Item)
  | .setItems items => items.map some
  | .add _ => if s.set.readOnly then s.saved else s.saved ++ [none]
  | .sort => s.sorted.map Prod.snd
  | .clearDirty index =>
    s.set.rows[index]?.elim s.saved fun row => s.saved.set index (some row.item)
  | _ => s.saved

/-- The set and the saved items after an operation. -/
def perform (s : Tracked) (op : Operation) : Tracked :=
  ⟨s.set.perform op, s.savedAfter op⟩

/-- The set and the saved items after operations on the set without rows. -/
def run (schema : TableSchema) (config : Config) (ops : List Operation) : Tracked :=
  ops.foldl perform ⟨.empty schema config, []⟩

/-- A row that is not dirty holds its saved item. -/
def Shows (row : Row) (saved : Option Item) : Prop :=
  row.flags.dirty = false → saved = some row.item

/-- Every row that is not dirty holds its saved item. -/
def Honest (s : Tracked) : Prop :=
  List.Forall₂ Shows s.set.rows s.saved

variable {schema : TableSchema} {config : Config} {s : Tracked} {op : Operation} {rows : List Row}

/-- The last of some operations is performed on what the others leave. -/
lemma run_concat (ops : List Operation) (op : Operation) :
    run schema config (ops ++ [op]) = (run schema config ops).perform op :=
  List.foldl_append

/-- The set is not changed by what is kept beside it. -/
lemma set_run (ops : List Operation) :
    (run schema config ops).set = (ResultSet.empty schema config).performAll ops := by
  induction ops using List.reverseRecOn with
  | nil => rfl
  | append_singleton ops op ih =>
    rw [run_concat, ResultSet.performAll_concat, ← ih]
    rfl

section Forall₂

variable {α β : Type} {R : α → β → Prop} {xs : List α} {ys : List β} {i : Nat} {x : α} {y : β}

/-- An element is related to the one at its place in the other list. -/
lemma forall₂_getElem? (h : List.Forall₂ R xs ys) (hx : xs[i]? = some x) :
    ∃ y, ys[i]? = some y ∧ R x y := by
  obtain ⟨hi, rfl⟩ := List.getElem?_eq_some_iff.1 hx
  exact ⟨_, List.getElem?_eq_getElem (h.length_eq ▸ hi), h.get hi _⟩

/-- Lists stay related if elements at one place in both are changed to related ones. -/
lemma forall₂_set (h : List.Forall₂ R xs ys) (i : Nat) (hxy : R x y) :
    List.Forall₂ R (xs.set i x) (ys.set i y) := by
  induction h generalizing i with
  | nil => exact .nil
  | cons hhead htail ih =>
    cases i with
    | zero => exact .cons hxy htail
    | succ i => exact .cons hhead (ih i)

/-- One side is replaced where it still fits the other. -/
lemma forall₂_set_left (h : List.Forall₂ R xs ys) (hx : ∀ y, ys[i]? = some y → R x y) :
    List.Forall₂ R (xs.set i x) ys := by
  cases hy : ys[i]? with
  | none =>
    rw [List.set_eq_of_length_le]
    · exact h
    · rw [h.length_eq]
      exact List.getElem?_eq_none_iff.1 hy
  | some y =>
    obtain ⟨hi, heq⟩ := List.getElem?_eq_some_iff.1 hy
    have hset := forall₂_set h i (hx y hy)
    rwa [← heq, List.set_getElem_self] at hset

end Forall₂

/-- The rows of the sorted set are the rows that the saved items go with. -/
lemma map_fst_sorted (h : s.set.rows.length = s.saved.length) :
    s.sorted.map Prod.fst = s.set.sort.rows := by
  have hzip : (s.set.rows.zip s.saved).map Prod.fst = s.set.rows := List.map_fst_zip h.le
  have hsort : s.sorted.map Prod.fst = ((s.set.rows.zip s.saved).map Prod.fst).mergeSort
      fun a b => ResultSet.compareItems s.set.schema.primary a.item b.item != .gt :=
    List.map_mergeSort fun _ _ _ _ => rfl
  rw [hsort, hzip]
  rfl

/-- Sorting moves each saved item with its row. -/
lemma honest_sorted (h : s.Honest) :
    List.Forall₂ Shows s.set.sort.rows (s.sorted.map Prod.snd) := by
  rw [← map_fst_sorted h.length_eq, List.forall₂_map_left_iff, List.forall₂_map_right_iff,
    List.forall₂_same]
  intro x hx
  exact List.forall₂_zip h ((List.mergeSort_perm ..).mem_iff.1 hx)

/-- An operation that keeps the rows at their places keeps the saved items. -/
lemma savedAfter_of_keep (h : op.regroups = false) : s.savedAfter op = s.saved := by
  cases op with
  | setItems _ | add _ | sort | clearDirty _ => cases h
  | _ => rfl

/-- Marks do not matter for what the rows show. -/
lemma forall₂_shows_of_map_bare {rows rows' : List Row} {saved : List (Option Item)}
    (hbare : rows'.map Row.bare = rows.map Row.bare) (h : List.Forall₂ Shows rows saved) :
    List.Forall₂ Shows rows' saved := by
  have hrows : List.Forall₂ Shows (rows.map Row.bare) saved := by
    rw [List.forall₂_map_left_iff]
    exact h
  rw [← hbare, List.forall₂_map_left_iff] at hrows
  exact hrows

/-- The maps in the rows have their fields in order. -/
def RowsOrdered (rows : List Row) : Prop :=
  ∀ row ∈ rows, row.item.Ordered

/-- An operation with ordered maps leaves rows with ordered maps. -/
lemma rowsOrdered_of_effect {rs : ResultSet} (effect : rs.Effect op rows) (hop : op.Ordered)
    (h : RowsOrdered rs.rows) : RowsOrdered rows := by
  cases effect with
  | load =>
    intro row hrow
    obtain ⟨item, hitem, rfl⟩ := List.mem_map.1 hrow
    exact hop item hitem
  | add _ =>
    intro row hrow
    rcases List.mem_append.1 hrow with hrow | hrow
    · exact h row hrow
    · rw [List.mem_singleton.1 hrow]
      exact hop
  | sort => exact fun row hrow => h row (ResultSet.mem_rows_sort.1 hrow)
  | @write _ path _ _ _ _ hrow hset =>
    have hitem := (h _ (List.mem_of_getElem? hrow)).set path hop
    rw [hset] at hitem
    exact ResultSet.forall_mem_set h hitem
  | @fail _ path _ _ _ _ _ hrow hset =>
    have hitem := (h _ (List.mem_of_getElem? hrow)).set path hop
    rw [hset] at hitem
    exact ResultSet.forall_mem_set h hitem
  | delete _ hrow hremove =>
    have hitem := (h _ (List.mem_of_getElem? hrow)).remove hremove
    exact ResultSet.forall_mem_set h hitem
  | save hrow =>
    have hitem := h _ (List.mem_of_getElem? hrow)
    exact ResultSet.forall_mem_set h hitem
  | refuse _ | miss _ => exact h
  | keep _ hbare => exact ResultSet.forall_of_map_bare (fun _ => Iff.rfl) hbare h

/-- Operations with ordered maps on the empty set leave rows with ordered maps. -/
lemma rowsOrdered_performAll {ops : List Operation} (hops : ∀ op ∈ ops, op.Ordered) :
    RowsOrdered ((ResultSet.empty schema config).performAll ops).rows := by
  induction ops using List.reverseRecOn with
  | nil => exact nofun
  | append_singleton ops op ih =>
    rw [List.forall_mem_append] at hops
    rw [ResultSet.performAll_concat]
    apply rowsOrdered_of_effect (ResultSet.effect_perform _ op)
    · exact hops.2 op (List.mem_singleton_self op)
    · exact ih hops.1

/-- Rows that are not dirty hold their saved items after an operation as before it, unless the
operation breaks off. -/
lemma honest_perform (h : s.Honest) (hrows : RowsOrdered s.set.rows)
    (hbreaks : ¬ s.set.BreaksOff op) : (s.perform op).Honest := by
  have heffect := ResultSet.effect_perform s.set op
  change List.Forall₂ Shows (s.set.perform op).rows (s.savedAfter op)
  generalize (s.set.perform op).rows = rows at heffect
  cases heffect with
  | load =>
    change List.Forall₂ Shows _ (List.map some _)
    rw [List.forall₂_map_left_iff, List.forall₂_map_right_iff, List.forall₂_same]
    exact fun _ _ _ => rfl
  | add hwritable =>
    change List.Forall₂ Shows _ (if s.set.readOnly then _ else _)
    rw [hwritable]
    exact List.rel_append h (.cons nofun .nil)
  | sort => exact honest_sorted h
  | write _ _ _ => exact forall₂_set_left h fun _ _ => nofun
  | @fail index path value row item e hwritable hrow hset =>
    obtain ⟨saved, hsaved, hshows⟩ := forall₂_getElem? h hrow
    refine forall₂_set_left h fun y (hy : s.saved[index]? = some y) hclean => ?_
    have hitem : item = row.item := by
      have hiff := Item.set_fails_changed_iff (hrows row (List.mem_of_getElem? hrow)) path value
      rw [hset] at hiff
      by_contra hne
      exact hbreaks ⟨index, path, value, row, rfl, hwritable, hrow, hclean, hiff.1 ⟨⟨e, rfl⟩, hne⟩⟩
    cases hsaved.symm.trans hy
    rw [hshows hclean, hitem]
  | delete _ _ _ => exact forall₂_set_left h fun _ _ => nofun
  | save hrow =>
    change List.Forall₂ Shows _ (s.set.rows[_]?.elim s.saved _)
    rw [hrow]
    exact forall₂_set h _ fun _ => rfl
  | refuse hreadOnly =>
    change List.Forall₂ Shows _ (if s.set.readOnly then _ else _)
    rw [hreadOnly]
    exact h
  | miss hnone =>
    change List.Forall₂ Shows _ (s.set.rows[_]?.elim s.saved _)
    rw [hnone]
    exact h
  | keep hregroups hbare =>
    rw [savedAfter_of_keep hregroups]
    exact forall₂_shows_of_map_bare hbare h

/-- After an operation that breaks off, its row is not dirty and does not hold its saved item. -/
lemma not_honest_perform (h : s.Honest) (hrows : RowsOrdered s.set.rows)
    (hbreaks : s.set.BreaksOff op) : ¬ (s.perform op).Honest := by
  obtain ⟨index, path, value, row, rfl, hwritable, hrow, hclean, hitem⟩ := hbreaks
  obtain ⟨⟨e, hfails⟩, hchanged⟩ :=
    (Item.set_fails_changed_iff (hrows row (List.mem_of_getElem? hrow)) path value).2 hitem
  have hindex : index < s.set.rows.length := (List.getElem?_eq_some_iff.1 hrow).1
  have hafter : (s.set.perform (.setValue index path value)).rows[index]?
      = some { row with item := (row.item.set path value).1 } := by
    change (s.set.setValue index path value).1.rows[index]? = _
    rw [ResultSet.setValue_fails hwritable hrow (Prod.ext rfl hfails)]
    exact List.getElem?_set_self hindex
  intro hhonest
  obtain ⟨saved, hsaved, hshows⟩ := forall₂_getElem? h hrow
  obtain ⟨saved', hsaved', hshows'⟩ := forall₂_getElem? hhonest hafter
  cases hsaved.symm.trans hsaved'
  exact hchanged (Option.some.inj ((hshows' hclean).symm.trans (hshows hclean)))

/-- In every state that a set gets into each row that is not dirty holds the item that it held when
it was loaded or last saved, exactly if no write to a row that is not dirty breaks off. -/
theorem honest_iff_not_breaksOff (schema : TableSchema) (config : Config) (ops : List Operation)
    (hops : ∀ op ∈ ops, op.Ordered) :
    (∀ n, (run schema config (ops.take n)).Honest)
      ↔ ∀ n op, ops[n]? = some op →
        ¬ ((ResultSet.empty schema config).performAll (ops.take n)).BreaksOff op := by
  have hrows (n : Nat) : RowsOrdered (run schema config (ops.take n)).set.rows := by
    rw [set_run]
    exact rowsOrdered_performAll fun op hop => hops op (List.mem_of_mem_take hop)
  have hstep {n : Nat} {op : Operation} (hop : ops[n]? = some op) :
      run schema config (ops.take (n + 1)) = (run schema config (ops.take n)).perform op := by
    rw [List.take_add_one, hop, Option.toList_some, run_concat]
  constructor
  · intro hhonest n op hop hbreaks
    rw [← set_run] at hbreaks
    have hafter := hhonest (n + 1)
    rw [hstep hop] at hafter
    exact not_honest_perform (hhonest n) (hrows n) hbreaks hafter
  · intro hbreaks n
    induction n with
    | zero => exact .nil
    | succ n ih =>
      cases hop : ops[n]? with
      | none =>
        have hlength := List.getElem?_eq_none_iff.1 hop
        rw [List.take_of_length_le hlength] at ih
        rw [List.take_of_length_le (Nat.le_succ_of_le hlength)]
        exact ih
      | some op =>
        rw [hstep hop]
        refine honest_perform ih (hrows n) ?_
        rw [set_run]
        exact hbreaks n op hop

/-- The first write fails at a value that is not a list. The last one breaks off in a row that is
dirty by then, and what it has left is saved. -/
theorem honest_iff_not_breaksOff_saved :
    let schema : TableSchema := ⟨"t", ⟨⟨"a", .string⟩, none⟩, []⟩
    let ops : List Operation := [.setItems [[("a", .string "x")]],
      .setValue 0 ⟨[.key "a", .index 0]⟩ (.bool true), .setValue 0 ⟨[.key "b"]⟩ (.bool true),
      .setValue 0 ⟨[.key "c", .index 0]⟩ (.bool true), .clearDirty 0]
    (∀ op ∈ ops, op.Ordered) ∧ ∀ n, (run schema {} (ops.take n)).Honest := by
  intro schema ops
  have hops : ∀ op ∈ ops, op.Ordered := by
    simp [ops, Operation.Ordered, Item.Ordered, Stored.Ordered, Stored.FieldsOrdered,
      Fields.Ordered]
  refine ⟨hops, (honest_iff_not_breaksOff schema {} ops hops).2 ?_⟩
  rintro n op hop ⟨index, path, value, row, rfl, -, hrow, hclean, hitem⟩
  have hordered := rowsOrdered_performAll (fun op hop => hops op (List.mem_of_mem_take hop)) row
    (List.mem_of_getElem? hrow)
  have hbroken := (Item.set_fails_changed_iff hordered path (.bool true)).2 hitem
  rcases n with _ | _ | _ | _ | _ | n
  case zero => cases hop
  case succ.zero =>
    cases hop
    obtain rfl := Option.some.inj hrow
    exact hbroken.2 rfl
  case succ.succ.zero =>
    cases hop
    obtain rfl := Option.some.inj hrow
    obtain ⟨⟨_, ⟨⟩⟩, -⟩ := hbroken
  case succ.succ.succ.zero =>
    cases hop
    obtain rfl := Option.some.inj hrow
    cases hclean
  case succ.succ.succ.succ.zero => cases hop
  case succ.succ.succ.succ.succ => cases hop

/-- A write into a missing list fails, and leaves an empty map in a row that is not dirty. -/
theorem not_honest_missing_list :
    let schema : TableSchema := ⟨"t", ⟨⟨"id", .string⟩, none⟩, []⟩
    let s := run schema {} [.setItems [[]], .setValue 0 ⟨[.key "a", .index 0]⟩ (.string "x")]
    s.set.rows = [{ item := [("a", .map [])] }] ∧ s.saved = [some []] ∧ ¬ s.Honest := by
  refine ⟨rfl, rfl, fun hhonest => ?_⟩
  cases hhonest with
  | cons hshows _ => cases hshows rfl

end Tracked

end TableQuery
