import Mathlib.Data.List.Induction
import TableQuery.Proofs.Except
import TableQuery.ResultSet

/-!
# Operations on result sets

Everything that can be done to a result set, as data, so that what a set has been through is a list.
An operation that fails leaves a set behind as well. What an operation can do to the rows is said
once, and invariants of sets are shown by its cases.
-/

namespace TableQuery

/-- An operation on a result set. -/
inductive Operation where
  | setItems (items : List Item)
  | setQuery (query : Option String)
  | add (item : Item)
  | mark (action : MarkAction) (indexes : List Nat)
  | markVisible (action : MarkAction)
  | unmarkAll
  | filterByText (text : String)
  | markMatching (env : Environment) (t : Term)
  | sort
  | setValue (index : Nat) (path : Path) (value : Stored)
  | delete (index : Nat) (path : Path)
  | clearDirty (index : Nat)

/-- An operation changes what rows there are, their order or which of them are saved. -/
def Operation.regroups : Operation → Bool
  | .setItems _ | .add _ | .sort | .clearDirty _ => true
  | _ => false

/-- A row but for its mark and for whether it is hidden. -/
def Row.bare (row : Row) : Row :=
  { row with flags.marked := false, flags.hidden := false }

/-- A mark is not part of a bare row. -/
lemma Row.bare_mark (action : MarkAction) (row : Row) : (row.mark action).bare = row.bare := by
  unfold mark
  split <;> rfl

namespace ResultSet

/-- The set that an operation on `rs` leaves if it changes nothing when it fails. -/
def orElse {α : Type} (rs : ResultSet) (result : Except QueryError (ResultSet × α)) : ResultSet :=
  result.toOption.elim rs Prod.fst

/-- The set after an operation, whether it succeeds or fails. -/
def perform (rs : ResultSet) : Operation → ResultSet
  | .setItems items => rs.setItems items
  | .setQuery query => rs.setQuery query
  | .add item => rs.orElse (rs.add item)
  | .mark action indexes => (mark action rs indexes).1
  | .markVisible action => rs.markVisible action
  | .unmarkAll => rs.unmarkAll
  | .filterByText text => rs.filterByText text
  | .markMatching env t => rs.orElse (rs.markMatching env t)
  | .sort => rs.sort
  | .setValue index path value => (rs.setValue index path value).1
  | .delete index path => rs.orElse (rs.delete index path)
  | .clearDirty index => (rs.clearDirty index).toOption.getD rs

/-- The set after operations, one after the other. -/
def performAll (rs : ResultSet) (ops : List Operation) : ResultSet :=
  ops.foldl perform rs

/-- The last of some operations is performed on the set that the others leave. -/
lemma performAll_concat (rs : ResultSet) (ops : List Operation) (op : Operation) :
    rs.performAll (ops ++ [op]) = (rs.performAll ops).perform op :=
  List.foldl_append

/-- What an operation does to the rows. -/
inductive Effect (rs : ResultSet) : Operation → List Row → Prop where
  | load {items} :
    Effect rs (.setItems items) (items.map fun item => { item })
  | add {item} :
    rs.readOnly = false →
    Effect rs (.add item) (rs.rows ++ [{ item, flags := { dirty := true, new := true } }])
  | sort :
    Effect rs .sort rs.sort.rows
  | write {index path value row item} :
    rs.readOnly = false →
    rs.rows[index]? = some row →
    row.item.set path value = (item, .ok ()) →
    Effect rs (.setValue index path value)
      (rs.rows.set index { row with item, flags.dirty := true })
  /-- a write that fails may have changed the item -/
  | fail {index path value row item e} :
    rs.readOnly = false →
    rs.rows[index]? = some row →
    row.item.set path value = (item, .error e) →
    Effect rs (.setValue index path value) (rs.rows.set index { row with item })
  | delete {index path row item removed} :
    rs.readOnly = false →
    rs.rows[index]? = some row →
    row.item.remove path = .ok (removed, item) →
    Effect rs (.delete index path) (rs.rows.set index { row with item, flags.dirty := true })
  | save {index row} :
    rs.rows[index]? = some row →
    Effect rs (.clearDirty index)
      (rs.rows.set index { row with flags.dirty := false, flags.new := false })
  /-- a set that is read only takes no new row -/
  | refuse {item} :
    rs.readOnly = true →
    Effect rs (.add item) rs.rows
  | miss {index} :
    rs.rows[index]? = none →
    Effect rs (.clearDirty index) rs.rows
  /-- marks and the text filter, and edits that fail at once -/
  | keep {op rows} :
    op.regroups = false →
    rows.map Row.bare = rs.rows.map Row.bare →
    Effect rs op rows

variable {rs : ResultSet}

/-- A set can be written unless it is read-only. -/
lemma checkWritable_eq_ok_iff : rs.checkWritable = .ok () ↔ rs.readOnly = false := by
  unfold checkWritable
  cases rs.readOnly with
  | false => exact iff_of_true rfl rfl
  | true => exact iff_of_false nofun nofun

/-- A row is found exactly under the index that it has. -/
lemma row_eq_ok_iff {index : Nat} {row : Row} :
    rs.row index = .ok row ↔ rs.rows[index]? = some row := by
  unfold ResultSet.row
  cases rs.rows[index]? <;> simp

/-- What does not depend on marks holds of rows that are the same but for marks. -/
lemma forall_of_map_bare {P : Row → Prop} (hP : ∀ row, P row.bare ↔ P row) {rows rows' : List Row}
    (h : rows'.map Row.bare = rows.map Row.bare) (hrows : ∀ row ∈ rows, P row) :
    ∀ row ∈ rows', P row := by
  have hbare : ∀ row ∈ rows'.map Row.bare, P row := by
    rw [h, List.forall_mem_map]
    exact fun row hrow => (hP row).2 (hrows row hrow)
  rw [List.forall_mem_map] at hbare
  exact fun row hrow => (hP row).1 (hbare row hrow)

/-- Rows that are the same without their marks have the same items. -/
lemma map_item_of_map_bare {rows rows' : List Row} (h : rows'.map Row.bare = rows.map Row.bare) :
    rows'.map Row.item = rows.map Row.item := by
  have hitems := congrArg (List.map Row.item) h
  rwa [List.map_map, List.map_map] at hitems

/-- What a row that is replaced has in common with its replacement stays. -/
lemma map_set_eq {β : Type} {f : Row → β} {rows : List Row} {index : Nat} {row after : Row}
    (hrow : rows[index]? = some row) (h : f after = f row) :
    (rows.set index after).map f = rows.map f := by
  obtain ⟨hindex, rfl⟩ := List.getElem?_eq_some_iff.1 hrow
  rw [List.map_set, h, ← List.getElem_map f, List.set_getElem_self]
  rwa [List.length_map]

/-- What holds of every row and of a changed one holds after the change. -/
lemma forall_mem_set {P : Row → Prop} {rows : List Row} {index : Nat} {after : Row}
    (h : ∀ row ∈ rows, P row) (hafter : P after) : ∀ row ∈ rows.set index after, P row := by
  intro row hrow
  rcases List.mem_or_eq_of_mem_set hrow with hrow | hrow
  · exact h row hrow
  · rw [hrow]
    exact hafter

/-- Sorting keeps the rows. -/
lemma mem_rows_sort {row : Row} : row ∈ rs.sort.rows ↔ row ∈ rs.rows :=
  (List.mergeSort_perm ..).mem_iff

/-- Marking changes nothing but marks. -/
lemma map_bare_mark (action : MarkAction) (indexes : List Nat) (rs : ResultSet) :
    (mark action rs indexes).1.rows.map Row.bare = rs.rows.map Row.bare := by
  induction indexes generalizing rs with
  | nil => rfl
  | cons index rest ih =>
    unfold mark
    split
    next row hrow =>
      rw [ih]
      exact map_set_eq (row_eq_ok_iff.1 hrow) (row.bare_mark action)
    next => rfl

/-- Marking by a term changes nothing but marks. -/
lemma map_bare_markMatching (env : Environment) (t : Term) :
    (rs.orElse (rs.markMatching env t)).rows.map Row.bare = rs.rows.map Row.bare := by
  unfold orElse markMatching
  cases rs.matching (rs.environment env) t with
  | error e => rfl
  | ok hits =>
    change (rs.rows.zipIdx.map _).map Row.bare = _
    rw [List.map_map, ← congrArg (List.map Row.bare) (List.zipIdx_map_fst 0 rs.rows), List.map_map]
    refine List.map_congr_left fun x _ => ?_
    dsimp only [Function.comp_apply]
    split <;> rfl

/-- Rows that are changed one by one are the same but for marks if each is. -/
lemma map_bare_map {f : Row → Row} (h : ∀ row, (f row).bare = row.bare) (rows : List Row) :
    (rows.map f).map Row.bare = rows.map Row.bare := by
  rw [List.map_map]
  exact List.map_congr_left fun row _ => h row

/-- Adding an item appends a row for it, or fails. -/
lemma effect_add (item : Item) : Effect rs (.add item) (rs.orElse (rs.add item)).rows := by
  unfold orElse ResultSet.add
  cases h : rs.checkWritable with
  | ok _ => exact .add (checkWritable_eq_ok_iff.1 h)
  | error e =>
    refine .refuse (Bool.not_eq_false _ ▸ fun hwritable => ?_)
    rw [checkWritable_eq_ok_iff.2 hwritable] at h
    cases h

/-- Writing a value changes the item of one row, and its flags if it succeeds. -/
lemma effect_setValue (index : Nat) (path : Path) (value : Stored) :
    Effect rs (.setValue index path value) (rs.setValue index path value).1.rows := by
  unfold setValue
  split
  next => exact .keep rfl rfl
  next row hrow =>
    obtain ⟨_, hwritable, hrow⟩ := bind_eq_ok_iff.1 hrow
    rw [checkWritable_eq_ok_iff] at hwritable
    rw [row_eq_ok_iff] at hrow
    split
    next item hset => exact .write hwritable hrow hset
    next item e hset => exact .fail hwritable hrow hset

/-- A write that fails is not undone. -/
lemma setValue_fails {index : Nat} {path : Path} {value : Stored} {row : Row} {item : Item}
    {e : QueryError} (hwritable : rs.readOnly = false) (hrow : rs.rows[index]? = some row)
    (hset : row.item.set path value = (item, .error e)) :
    rs.setValue index path value = (rs.setRow index { row with item }, .error e) := by
  have hedit : (do rs.checkWritable; rs.row index) = .ok row := by
    rw [checkWritable_eq_ok_iff.2 hwritable, row_eq_ok_iff.2 hrow]
    rfl
  unfold setValue
  rw [hedit]
  dsimp only
  rw [hset]

/-- Deleting a value changes one row, or fails. -/
lemma effect_delete (index : Nat) (path : Path) :
    Effect rs (.delete index path) (rs.orElse (rs.delete index path)).rows := by
  unfold orElse
  cases h : rs.delete index path with
  | error e => exact .keep rfl rfl
  | ok result =>
    obtain ⟨_, hwritable, h⟩ := bind_eq_ok_iff.1 h
    obtain ⟨row, hrow, h⟩ := bind_eq_ok_iff.1 h
    obtain ⟨⟨removed, item⟩, hremove, h⟩ := bind_eq_ok_iff.1 h
    cases h
    exact .delete (checkWritable_eq_ok_iff.1 hwritable) (row_eq_ok_iff.1 hrow) hremove

/-- Clearing a row changes its flags, or fails. -/
lemma effect_clearDirty (index : Nat) :
    Effect rs (.clearDirty index) ((rs.clearDirty index).toOption.getD rs).rows := by
  unfold clearDirty ResultSet.row
  cases h : rs.rows[index]? with
  | none => exact .miss h
  | some row => exact .save h

/-- Every operation has one of the effects. -/
theorem effect_perform (rs : ResultSet) (op : Operation) : Effect rs op (rs.perform op).rows := by
  cases op with
  | setItems items => exact .load
  | setQuery query => exact .keep rfl rfl
  | add item => exact effect_add item
  | mark action indexes => exact .keep rfl (map_bare_mark action indexes rs)
  | markVisible action => exact .keep rfl (map_bare_map (Row.bare_mark action) rs.rows)
  | unmarkAll =>
    refine .keep rfl ?_
    apply map_bare_map
    exact fun _ => rfl
  | filterByText text =>
    refine .keep rfl ?_
    apply map_bare_map
    exact fun _ => rfl
  | markMatching env t => exact .keep rfl (map_bare_markMatching env t)
  | sort => exact .sort
  | setValue index path value => exact effect_setValue index path value
  | delete index path => exact effect_delete index path
  | clearDirty index => exact effect_clearDirty index

/-- Marking does not make a set read-only or writable. -/
lemma readOnly_mark (action : MarkAction) (indexes : List Nat) (rs : ResultSet) :
    (mark action rs indexes).1.readOnly = rs.readOnly := by
  induction indexes generalizing rs with
  | nil => rfl
  | cons index rest ih =>
    unfold mark
    split
    next row _ => exact ih (rs.setRow index (row.mark action))
    next => rfl

/-- An operation that keeps `readOnly` when it succeeds keeps it. -/
lemma readOnly_orElse {α : Type} {result : Except QueryError (ResultSet × α)}
    (h : ∀ after a, result = .ok (after, a) → after.readOnly = rs.readOnly) :
    (rs.orElse result).readOnly = rs.readOnly := by
  cases result with
  | error e => rfl
  | ok result => exact h result.1 result.2 rfl

/-- No operation makes a set writable or read only. -/
theorem readOnly_perform (rs : ResultSet) (op : Operation) :
    (rs.perform op).readOnly = rs.readOnly := by
  cases op with
  | setItems _ | setQuery _ | markVisible _ | unmarkAll | filterByText _ | sort => rfl
  | add item =>
    apply readOnly_orElse
    intro after index h
    obtain ⟨_, -, h⟩ := bind_eq_ok_iff.1 h
    cases h
    rfl
  | mark action indexes => exact readOnly_mark action indexes rs
  | markMatching env t =>
    apply readOnly_orElse
    intro after count h
    obtain ⟨_, -, h⟩ := bind_eq_ok_iff.1 h
    cases h
    rfl
  | setValue index path value =>
    change (rs.setValue index path value).1.readOnly = rs.readOnly
    unfold setValue
    split
    next => rfl
    next => split <;> rfl
  | delete index path =>
    apply readOnly_orElse
    intro after removed h
    obtain ⟨_, -, h⟩ := bind_eq_ok_iff.1 h
    obtain ⟨_, -, h⟩ := bind_eq_ok_iff.1 h
    obtain ⟨_, -, h⟩ := bind_eq_ok_iff.1 h
    cases h
    rfl
  | clearDirty index =>
    change ((rs.clearDirty index).toOption.getD rs).readOnly = rs.readOnly
    unfold clearDirty
    cases rs.row index <;> rfl

/-- No operations make a set read-only or writable. -/
lemma readOnly_performAll (rs : ResultSet) (ops : List Operation) :
    (rs.performAll ops).readOnly = rs.readOnly := by
  induction ops using List.reverseRecOn with
  | nil => rfl
  | append_singleton ops op ih => rw [performAll_concat, readOnly_perform, ih]

end ResultSet

end TableQuery
