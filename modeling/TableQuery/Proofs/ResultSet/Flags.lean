import TableQuery.Proofs.ResultSet.Operations

/-!
# Flags over runs

What the flags of rows tell after any operations on a set, whether they succeed or fail. A new row
is dirty; and in a set that is read only no row is either, and the items are those that were loaded.
-/

namespace TableQuery

/-- The items that operations loaded last. -/
def Operation.loaded (ops : List Operation) : List Item :=
  (ops.reverse.findSome? fun
    | .setItems items => some items
    | _ => none).getD []

/-- After items are set, they are the ones that are loaded. -/
lemma Operation.loaded_concat_setItems (ops : List Operation) (items : List Item) :
    loaded (ops ++ [.setItems items]) = items := by
  rw [loaded, List.reverse_append]
  rfl

/-- Other operations do not change which items are loaded. -/
lemma Operation.loaded_concat {op : Operation} (h : ∀ items, op ≠ .setItems items)
    (ops : List Operation) : loaded (ops ++ [op]) = loaded ops := by
  rw [loaded, List.reverse_append]
  cases op with
  | setItems items => exact absurd rfl (h items)
  | _ => rfl

namespace ResultSet

/-- Every new row is dirty. -/
def NewAreDirty (rows : List Row) : Prop :=
  ∀ row ∈ rows, row.flags.new = true → row.flags.dirty = true

/-- No row is dirty or new, and the items are those given. -/
structure Pristine (rows : List Row) (items : List Item) : Prop where
  clean : ∀ row ∈ rows, row.flags.dirty = false ∧ row.flags.new = false
  items : (rows.map Row.item).Perm items

variable {rs : ResultSet} {op : Operation} {rows : List Row}

/-- After every operation new rows are dirty if they were before. -/
lemma newAreDirty_of_effect (effect : Effect rs op rows) (h : NewAreDirty rs.rows) :
    NewAreDirty rows := by
  cases effect with
  | load =>
    intro row hrow hnew
    obtain ⟨_, -, rfl⟩ := List.mem_map.1 hrow
    cases hnew
  | add _ =>
    intro row hrow hnew
    rcases List.mem_append.1 hrow with hrow | hrow
    · exact h row hrow hnew
    · rw [List.mem_singleton.1 hrow]
  | sort => exact fun row hrow => h row (mem_rows_sort.1 hrow)
  | write _ _ _ => exact forall_mem_set h (fun _ => rfl)
  | fail _ hrow _ =>
    have hnew := h _ (List.mem_of_getElem? hrow)
    exact forall_mem_set h hnew
  | delete _ _ _ => exact forall_mem_set h (fun _ => rfl)
  | save _ => exact forall_mem_set h nofun
  | refuse _ | miss _ => exact h
  | keep _ hbare => exact forall_of_map_bare (fun _ => Iff.rfl) hbare h

/-- An operation on a set that is read only may load items, and else changes no row but for its
mark and its place. -/
lemma pristine_of_effect (effect : Effect rs op rows) (hreadOnly : rs.readOnly = true)
    {ops : List Operation} (h : Pristine rs.rows (Operation.loaded ops)) :
    Pristine rows (Operation.loaded (ops ++ [op])) := by
  have refused : rs.readOnly ≠ false := by
    rw [hreadOnly]
    exact nofun
  cases effect with
  | @load items =>
    rw [Operation.loaded_concat_setItems]
    refine ⟨?_, ?_⟩
    · intro row hrow
      obtain ⟨_, -, rfl⟩ := List.mem_map.1 hrow
      exact ⟨rfl, rfl⟩
    · rw [List.map_map]
      exact .of_eq (List.map_id items)
  | add hwritable => exact absurd hwritable refused
  | write hwritable _ _ => exact absurd hwritable refused
  | fail hwritable _ _ => exact absurd hwritable refused
  | delete hwritable _ _ => exact absurd hwritable refused
  | sort =>
    rw [Operation.loaded_concat fun _ => Operation.noConfusion]
    refine ⟨fun row hrow => h.clean row (mem_rows_sort.1 hrow), ?_⟩
    exact ((List.mergeSort_perm ..).map _).trans h.items
  | @save index row hrow =>
    rw [Operation.loaded_concat fun _ => Operation.noConfusion]
    refine ⟨forall_mem_set h.clean ⟨rfl, rfl⟩, ?_⟩
    have hitems : (rs.rows.set index { row with flags.dirty := false, flags.new := false }).map
        Row.item = rs.rows.map Row.item := map_set_eq hrow rfl
    rw [hitems]
    exact h.items
  | refuse _ =>
    rw [Operation.loaded_concat fun _ => Operation.noConfusion]
    exact h
  | miss _ =>
    rw [Operation.loaded_concat fun _ => Operation.noConfusion]
    exact h
  | keep hregroups hbare =>
    rw [Operation.loaded_concat (by rintro _ rfl; cases hregroups)]
    refine ⟨forall_of_map_bare (fun _ => Iff.rfl) hbare h.clean, ?_⟩
    rw [map_item_of_map_bare hbare]
    exact h.items

/-- After any operations every new row is dirty. If the set is read only, then no row is dirty or
new, and the items are those that were loaded last, in any order. -/
theorem flags_performAll (schema : TableSchema) (config : Config) (ops : List Operation) :
    NewAreDirty ((empty schema config).performAll ops).rows
      ∧ (config.readOnly = true →
        Pristine ((empty schema config).performAll ops).rows (Operation.loaded ops)) := by
  induction ops using List.reverseRecOn with
  | nil => exact ⟨nofun, fun _ => ⟨nofun, .nil⟩⟩
  | append_singleton ops op ih =>
    have heffect := effect_perform ((empty schema config).performAll ops) op
    rw [performAll_concat]
    refine ⟨newAreDirty_of_effect heffect ih.1, fun hreadOnly => ?_⟩
    apply pristine_of_effect heffect
    · rw [readOnly_performAll]
      exact hreadOnly
    · exact ih.2 hreadOnly

/-- Two items are loaded, edited in vain, sorted and saved. -/
theorem flags_performAll_readOnly :
    let schema : TableSchema := ⟨"t", ⟨⟨"a", .string⟩, none⟩, []⟩
    let config : Config := { readOnly := true }
    let items : List Item := [[("a", .string "y")], [("a", .string "x")]]
    let ops : List Operation := [.setItems items, .setValue 0 ⟨[.key "b"]⟩ (.bool true), .add [],
      .delete 1 ⟨[.key "a"]⟩, .sort, .clearDirty 0]
    config.readOnly = true ∧ Operation.loaded ops = items
      ∧ Pristine ((empty schema config).performAll ops).rows items :=
  ⟨rfl, rfl, (flags_performAll _ _ _).2 rfl⟩

end ResultSet

end TableQuery
