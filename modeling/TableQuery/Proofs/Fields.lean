import Mathlib.Data.List.Perm.Basic
import Mathlib.Data.String.Basic
import TableQuery.Fields

/-!
# Laws of named fields

Writing a field changes what is under its name and keeps the order of the names. The fields of a
list without a name twice are the entries of the list in that order, so they depend on the entries
and not on where they stand.
-/

namespace TableQuery.Fields

variable {α : Type}

/-- What is under a name after a field is written. -/
lemma get?_insert (k name : String) (v : α) (fields : Fields α) :
    get? k (insert name v fields) = if k = name then some v else get? k fields := by
  induction fields with
  | nil => simp [insert, get?, eq_comm]
  | cons field rest ih =>
    obtain ⟨l, u⟩ := field
    by_cases hk : k = name
    · subst hk
      rw [if_pos rfl] at ih ⊢
      unfold insert
      split
      · simp [get?]
      split
      · simp [get?]
      next hne => simp [get?, hne, ih]
    · rw [if_neg hk] at ih ⊢
      unfold insert
      split
      · simp [get?, Ne.symm hk]
      split
      next hl => simp [get?, hl, Ne.symm hk]
      next => simp [get?, ih]

/-- What is under a name is one of the fields. -/
lemma mem_of_get? {name : String} {v : α} {fields : Fields α} (h : get? name fields = some v) :
    (name, v) ∈ fields := by
  induction fields with
  | nil => cases h
  | cons field rest ih =>
    unfold get? at h
    split at h
    next hk =>
      cases h
      rw [← hk]
      exact List.mem_cons_self
    next => exact List.mem_cons_of_mem _ (ih h)

/-- What is under a name among the fields of some names. -/
lemma get?_filter {keep : String → Bool} {name : String} (h : keep name = true)
    (fields : Fields α) : get? name (fields.filter fun field => keep field.1) = get? name fields := by
  induction fields with
  | nil => rfl
  | cons field rest ih =>
    obtain ⟨k, v⟩ := field
    rw [List.filter_cons]
    split
    next => rw [get?, get?, ih]
    next hk =>
      have hne : k ≠ name := by
        rintro rfl
        exact hk h
      rw [ih, get?, if_neg hne]

/-- The fields after one is written are that one and some of those before. -/
lemma mem_insert {field : String × α} {name : String} {v : α} {fields : Fields α}
    (h : field ∈ insert name v fields) : field = (name, v) ∨ field ∈ fields := by
  induction fields with
  | nil => exact .inl (List.mem_singleton.1 h)
  | cons first rest ih =>
    unfold insert at h
    split at h
    · exact (List.mem_cons.1 h)
    split at h
    · exact (List.mem_cons.1 h).imp_right (List.mem_cons_of_mem _)
    · rcases List.mem_cons.1 h with rfl | h
      · exact .inr List.mem_cons_self
      · exact (ih h).imp_right (List.mem_cons_of_mem _)

/-- The fields without one are some of those before. -/
lemma erase_sublist (name : String) (fields : Fields α) : (erase name fields).Sublist fields := by
  induction fields with
  | nil => exact .slnil
  | cons field rest ih =>
    unfold erase
    split
    · exact List.sublist_cons_self ..
    · exact ih.cons_cons _

/-- A field with a new name is one more field. -/
lemma insert_perm {name : String} {fields : Fields α} (v : α)
    (h : name ∉ fields.map Prod.fst) : (insert name v fields).Perm ((name, v) :: fields) := by
  induction fields with
  | nil => rfl
  | cons field rest ih =>
    obtain ⟨l, u⟩ := field
    obtain ⟨hne, hrest⟩ := List.ne_and_not_mem_of_not_mem_cons h
    unfold insert
    split
    · rfl
    rw [if_neg (Ne.symm hne)]
    exact ((ih hrest).cons _).trans (.swap ..)

/-- The names of the fields after one is written. -/
lemma mem_names_insert {k name : String} {v : α} {fields : Fields α}
    (h : k ∈ (insert name v fields).map Prod.fst) : k = name ∨ k ∈ fields.map Prod.fst := by
  induction fields with
  | nil => simpa [insert] using h
  | cons field rest ih =>
    obtain ⟨l, u⟩ := field
    unfold insert at h
    split at h
    · simpa using h
    split at h
    next hl => simpa [hl] using h
    next =>
      rw [List.map_cons, List.mem_cons] at h ⊢
      rcases h with rfl | h
      · exact .inr (.inl rfl)
      · exact (ih h).imp_right .inr

/-- A field that is inserted stands at its place in the order. -/
lemma Ordered.insert {fields : Fields α} (h : Ordered fields) (name : String) (v : α) :
    Ordered (insert name v fields) := by
  induction fields with
  | nil => simp [Ordered, Fields.insert]
  | cons field rest ih =>
    obtain ⟨l, u⟩ := field
    obtain ⟨hl, hrest⟩ := List.pairwise_cons.1 h
    unfold Fields.insert
    split
    next hlt =>
      refine List.pairwise_cons.2 ⟨fun k hk => ?_, h⟩
      rcases List.mem_cons.1 hk with rfl | hk
      · exact hlt
      · exact hlt.trans (hl k hk)
    split
    next heq =>
      subst heq
      exact List.pairwise_cons.2 ⟨hl, hrest⟩
    next hge hne =>
      refine List.pairwise_cons.2 ⟨fun k hk => ?_, ih hrest⟩
      rcases mem_names_insert hk with rfl | hk
      · exact lt_of_le_of_ne (not_lt.1 hge) hne
      · exact hl k hk

/-- The fields that are left after a removal are in order. -/
lemma Ordered.erase {fields : Fields α} (h : Ordered fields) (name : String) :
    Ordered (Fields.erase name fields) :=
  List.Pairwise.sublist ((erase_sublist name fields).map _) h

/-- Writing the value that is there changes nothing. -/
lemma Ordered.insert_eq_self {fields : Fields α} (h : Ordered fields) {name : String} {v : α}
    (hv : get? name fields = some v) : Fields.insert name v fields = fields := by
  induction fields with
  | nil => cases hv
  | cons field rest ih =>
    obtain ⟨l, u⟩ := field
    obtain ⟨hl, hrest⟩ := List.pairwise_cons.1 h
    unfold get? at hv
    unfold Fields.insert
    split at hv
    next heq =>
      cases hv
      rw [if_neg (heq ▸ lt_irrefl _), if_pos heq, heq]
    next hne =>
      -- the name stands further on, so that it is not before the first one
      have hlt : l < name := hl name (List.mem_map_of_mem (mem_of_get? hv))
      rw [if_neg (lt_asymm hlt), if_neg hne, ih hrest hv]

/-- Of two values written under one name the later one stays. -/
lemma insert_insert (name : String) (u v : α) (fields : Fields α) :
    insert name v (insert name u fields) = insert name v fields := by
  induction fields with
  | nil => simp [insert]
  | cons field rest ih =>
    obtain ⟨l, w⟩ := field
    by_cases hlt : name < l
    · simp [insert, hlt]
    by_cases heq : l = name
    · simp [insert, heq]
    · simp [insert, hlt, heq, ih]

/-- The removal of a name does not change what other names lead to. -/
lemma get?_erase_of_ne {k name : String} (h : k ≠ name) (fields : Fields α) :
    get? k (erase name fields) = get? k fields := by
  induction fields with
  | nil => rfl
  | cons field rest ih =>
    obtain ⟨l, u⟩ := field
    unfold erase
    split
    next heq =>
      have hne : l ≠ k := fun hl => h (hl.symm.trans heq)
      rw [get?, if_neg hne]
    next => rw [get?, get?, ih]

/-- A name that is before the first one has no value. -/
lemma get?_eq_none_of_lt {name : String} {fields : Fields α}
    (h : ∀ k ∈ fields.map Prod.fst, name < k) : get? name fields = none := by
  rw [Option.eq_none_iff_forall_ne_some]
  intro v hv
  exact lt_irrefl name (h name (List.mem_map_of_mem (mem_of_get? hv)))

/-- A name in front of all others is inserted at the beginning. -/
lemma insert_of_lt {name : String} {v : α} {fields : Fields α}
    (h : ∀ k ∈ fields.map Prod.fst, name < k) : insert name v fields = (name, v) :: fields := by
  cases fields with
  | nil => rfl
  | cons field rest => exact if_pos (h field.1 List.mem_cons_self)

/-- A name that was removed has no value. -/
lemma Ordered.get?_erase {fields : Fields α} (h : Ordered fields) (name : String) :
    get? name (Fields.erase name fields) = none := by
  induction fields with
  | nil => rfl
  | cons field rest ih =>
    obtain ⟨l, u⟩ := field
    obtain ⟨hl, hrest⟩ := List.pairwise_cons.1 h
    unfold Fields.erase
    split
    next heq => exact get?_eq_none_of_lt (heq ▸ hl)
    next hne => rw [get?, if_neg hne, ih hrest]

/-- A field that was removed is written back where it was. -/
lemma Ordered.insert_erase {fields : Fields α} (h : Ordered fields) {name : String} {v : α}
    (hv : get? name fields = some v) :
    Fields.insert name v (Fields.erase name fields) = fields := by
  induction fields with
  | nil => cases hv
  | cons field rest ih =>
    obtain ⟨l, u⟩ := field
    obtain ⟨hl, hrest⟩ := List.pairwise_cons.1 h
    unfold get? at hv
    unfold Fields.erase
    split at hv
    next heq =>
      cases hv
      rw [if_pos heq, insert_of_lt (heq ▸ hl), heq]
    next hne =>
      have hlt : l < name := hl name (List.mem_map_of_mem (mem_of_get? hv))
      rw [if_neg hne, Fields.insert, if_neg (lt_asymm hlt), if_neg hne, ih hrest hv]

/-- Fields in order have no name twice. -/
lemma Ordered.nodup {fields : Fields α} (h : Ordered fields) : (fields.map Prod.fst).Nodup :=
  List.Pairwise.imp ne_of_lt h

/-- Ordered fields are known by what they are, wherever it stands. -/
lemma Ordered.eq_of_perm {fields fields' : Fields α} (h : Ordered fields) (h' : Ordered fields')
    (hp : fields.Perm fields') : fields = fields' := by
  have asymm : ∀ a b : String × α, a ∈ fields → b ∈ fields' → a.1 < b.1 → b.1 < a.1 → a = b :=
    fun a b _ _ hab hba => absurd (hab.trans hba) (lt_irrefl _)
  exact hp.eq_of_pairwise asymm (List.pairwise_map.1 h) (List.pairwise_map.1 h')

/-- Entries written one after another are put into the order of their names. -/
lemma ordered_foldl_insert (entries : List (String × α)) {fields : Fields α} (h : Ordered fields) :
    Ordered (entries.foldl (fun fields (k, v) => insert k v fields) fields) := by
  induction entries generalizing fields with
  | nil => exact h
  | cons entry rest ih => exact ih (h.insert entry.1 entry.2)

/-- Entries with names that are new and differ are kept, each as a field. -/
lemma foldl_insert_perm (entries : List (String × α)) (fields : Fields α)
    (h : ((fields ++ entries).map Prod.fst).Nodup) :
    (entries.foldl (fun fields (k, v) => insert k v fields) fields).Perm (fields ++ entries) := by
  induction entries generalizing fields with
  | nil => rw [List.append_nil]; rfl
  | cons entry rest ih =>
    obtain ⟨k, v⟩ := entry
    -- the entry is a new field, in front of all of them but for the order
    have front : (fields ++ (k, v) :: rest).Perm ((k, v) :: fields ++ rest) :=
      List.perm_middle
    have hnodup := (front.map Prod.fst).nodup_iff.1 h
    have hnew : k ∉ fields.map Prod.fst := fun hk =>
      (List.nodup_cons.1 hnodup).1 (List.map_append ▸ List.mem_append_left _ hk)
    have step : (insert k v fields ++ rest).Perm ((k, v) :: fields ++ rest) :=
      (insert_perm v hnew).append_right rest
    exact (ih _ ((step.map Prod.fst).nodup_iff.2 hnodup)).trans (step.trans front.symm)

/-- The fields that are made of a list are in order. -/
lemma ordered_ofList (entries : List (String × α)) : Ordered (ofList entries) :=
  ordered_foldl_insert entries .nil

/-- The last entry of a list is inserted last. -/
lemma ofList_concat (entries : List (String × α)) (name : String) (v : α) :
    ofList (entries ++ [(name, v)]) = insert name v (ofList entries) :=
  List.foldl_append

/-- The fields of entries without a name twice are these entries. -/
lemma ofList_perm {entries : List (String × α)} (h : (entries.map Prod.fst).Nodup) :
    (ofList entries).Perm entries :=
  foldl_insert_perm entries [] h

/-- Among fields without a name twice one is found exactly if it is there. -/
lemma get?_eq_some_iff_mem {fields : Fields α} (h : (fields.map Prod.fst).Nodup) {name : String}
    {v : α} : get? name fields = some v ↔ (name, v) ∈ fields := by
  refine ⟨mem_of_get?, fun hmem => ?_⟩
  induction fields with
  | nil => cases hmem
  | cons field rest ih =>
    obtain ⟨hnew, hrest⟩ := List.nodup_cons.1 h
    unfold get?
    rcases List.mem_cons.1 hmem with rfl | hmem
    · exact if_pos rfl
    · have hne : field.1 ≠ name := fun heq => hnew (heq ▸ List.mem_map_of_mem hmem)
      rw [if_neg hne]
      exact ih hrest hmem

/-- The fields of entries without a name twice are looked up among the entries. -/
lemma get?_ofList_eq_some_iff {entries : List (String × α)} (h : (entries.map Prod.fst).Nodup)
    {name : String} {v : α} : get? name (ofList entries) = some v ↔ (name, v) ∈ entries := by
  have hperm := ofList_perm h
  rw [get?_eq_some_iff_mem ((hperm.map Prod.fst).nodup_iff.2 h), hperm.mem_iff]

/-- Ordered fields are the fields of their entries, wherever these stand. -/
lemma Ordered.ofList_eq {fields : Fields α} (h : Ordered fields) {entries : List (String × α)}
    (hp : entries.Perm fields) : ofList entries = fields :=
  (ordered_ofList entries).eq_of_perm h
    ((ofList_perm ((hp.map Prod.fst).nodup_iff.2 h.nodup)).trans hp)

end TableQuery.Fields
