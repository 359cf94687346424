import TableQuery.Proofs.Item.Writing

/-!
# Paths as lenses

What was written is read again, writing what is there changes nothing, and of two values written to
one path the later one stays. A write changes nothing that paths lead to which neither lead to its
place nor through it. It succeeds exactly if its path leads somewhere, or if new maps can take what
is missing of it.
-/

namespace TableQuery

/-- The path starts at an attribute. -/
def Path.IsRooted (p : Path) : Prop :=
  ∃ name rest, p.steps = .key name :: rest

/-- A path with a name as its first step is taken from its root. -/
lemma Path.IsRooted.fromRoot {p : Path} (h : p.IsRooted) : p.fromRoot = p.steps := by
  obtain ⟨name, rest, hsteps⟩ := h
  rw [Path.fromRoot, Path.root, hsteps]
  rfl

/-- A rooted path may be followed by any steps. -/
lemma Path.IsRooted.append {steps : List Step} (h : IsRooted ⟨steps⟩) (rest : List Step) :
    IsRooted ⟨steps ++ rest⟩ := by
  obtain ⟨name, behind, rfl⟩ := h
  exact ⟨name, behind ++ rest, rfl⟩

/-- The first steps of a rooted path are rooted, unless there are none. -/
lemma Path.IsRooted.of_append {steps rest : List Step} (h : IsRooted ⟨steps ++ rest⟩)
    (hsteps : steps ≠ []) : IsRooted ⟨steps⟩ := by
  obtain ⟨step, behind, rfl⟩ := List.exists_cons_of_ne_nil hsteps
  obtain ⟨name, _, heq⟩ := h
  obtain ⟨rfl, -⟩ := List.cons.inj heq
  exact ⟨name, behind, rfl⟩

/-- An error of reading, with another path in place of the one that it names. -/
def QueryError.withPath (p : Path) : QueryError → QueryError
  | .nameNotFound _ => .nameNotFound p
  | .notAMap _ => .notAMap p
  | e => e

namespace Stored

variable {path label : Path} {value v w c : Stored} {step : Step} {steps before rest : List Step}

/-- A name in a map leads to its field, if there is one, and then on. -/
lemma get_key_map (label : Path) (k : String) (rest : List Step) (fields : Fields Stored) :
    get label (.key k :: rest) (.map fields)
      = (Fields.get? k fields).elim (.error (.nameNotFound label)) (get label rest) := by
  rw [get]
  cases Fields.get? k fields <;> rfl

/-- An index in a list leads to its element, if there is one, and then on. -/
lemma get_index_list (label : Path) (i : UInt64) (rest : List Step) (xs : List Stored) :
    get label (.index i :: rest) (.list xs)
      = xs[i.toNat]?.elim (.error (.nameNotFound label)) (get label rest) := by
  rw [get]
  cases xs[i.toNat]? <;> rfl

/-- Nothing is in a new map. -/
lemma get_map_nil (label : Path) (h : steps ≠ []) :
    get label steps (.map []) = .error (.nameNotFound label) := by
  cases steps with
  | nil => exact absurd rfl h
  | cons step rest => cases step <;> rfl

/-- Only the errors tell for which path is read. -/
lemma get_withPath (path label : Path) (steps : List Step) (v : Stored) :
    get label steps v = (get path steps v).mapError (.withPath label) := by
  induction steps generalizing v with
  | nil => rfl
  | cons step rest ih =>
    cases step with
    | key k =>
      cases v with
      | map fields =>
        rw [get_key_map, get_key_map]
        cases Fields.get? k fields with
        | none => rfl
        | some c => exact ih c
      | _ => rfl
    | index i =>
      cases v with
      | list xs =>
        rw [get_index_list, get_index_list]
        cases xs[i.toNat]? with
        | none => rfl
        | some c => exact ih c
      | _ => rfl

/-- Steps that lead to a value do so whatever path they are read for. -/
lemma get_eq_ok_of_get (h : get path steps v = .ok c) (label : Path) :
    get label steps v = .ok c := by
  rw [get_withPath path, h]
  rfl

/-- Steps lead to a value exactly if the first of them leads to one from which the others do. -/
lemma get_cons_eq_ok_iff :
    get label (step :: rest) v = .ok w
      ↔ ∃ c, get label [step] v = .ok c ∧ get label rest c = .ok w := by
  rw [get_cons, bind_eq_ok_iff]

/-- Steps that are taken one after the other lead where the later ones lead from the value that the
earlier ones lead to. -/
lemma get_append (label : Path) (before rest : List Step) (v : Stored) :
    get label (before ++ rest) v = get label before v >>= get label rest := by
  induction before generalizing v with
  | nil => rfl
  | cons step before ih =>
    rw [List.cons_append, get_cons, get_cons step before]
    cases get label [step] v with
    | error e => rfl
    | ok c => exact ih c

/-- Where the earlier steps lead to a value, the later ones are taken from there. -/
lemma get_append_of_get (h : get label before v = .ok c) (rest : List Step) :
    get label (before ++ rest) v = get label rest c := by
  rw [get_append, h]
  rfl

/-- What is read from an ordered value is ordered. -/
lemma Ordered.of_get (hv : v.Ordered) (h : get label steps v = .ok c) : c.Ordered := by
  induction steps generalizing v with
  | nil =>
    cases h
    exact hv
  | cons step rest ih =>
    obtain ⟨d, hd, hc⟩ := get_cons_eq_ok_iff.1 h
    refine ih ?_ hc
    cases step with
    | key k =>
      obtain ⟨fields, rfl, hk⟩ := get_key_eq_ok_iff.1 hd
      exact hv.of_get? hk
    | index i =>
      obtain ⟨xs, rfl, hi⟩ := get_index_eq_ok_iff.1 hd
      exact hv.getElem? hi

section OneStep

/-- A write into a map goes into the value of the key, or into a new map. -/
lemma set_key_map (path : Path) (value : Stored) (k : String) (rest : List Step)
    (fields : Fields Stored) :
    set path value (.key k :: rest) (.map fields)
      = (.map (Fields.insert k
          (set path value rest ((Fields.get? k fields).getD (.map []))).1 fields),
        (set path value rest ((Fields.get? k fields).getD (.map []))).2) :=
  rfl

/-- A write behind an index changes the element there, and has the outcome that it has in it. -/
lemma set_index_list {i : UInt64} {xs : List Stored} (hi : xs[i.toNat]? = some c) (path : Path)
    (value : Stored) (rest : List Step) :
    set path value (.index i :: rest) (.list xs)
      = (.list (xs.set i.toNat (set path value rest c).1), (set path value rest c).2) := by
  rw [set, hi]

/-- A write behind a step writes into the value that the step leads to, and puts that back. -/
lemma set_cons (h : get label [step] v = .ok c) (path : Path) (value : Stored)
    (rest : List Step) :
    set path value (step :: rest) v
      = ((set path (set path value rest c).1 [step] v).1, (set path value rest c).2) := by
  cases step with
  | key k =>
    obtain ⟨fields, rfl, hk⟩ := get_key_eq_ok_iff.1 h
    rw [set_key_map, set_key_map, hk]
    rfl
  | index i =>
    obtain ⟨xs, rfl, hi⟩ := get_index_eq_ok_iff.1 h
    rw [set_index_list hi, set_index_list hi]
    rfl

/-- What was written is read. -/
lemma get_set_step (h : get label [step] v = .ok c) (path : Path) (value : Stored) :
    get label [step] (set path value [step] v).1 = .ok value := by
  cases step with
  | key k =>
    obtain ⟨fields, rfl, -⟩ := get_key_eq_ok_iff.1 h
    refine get_key_eq_ok_iff.2 ⟨_, rfl, ?_⟩
    rw [Fields.get?_insert, if_pos rfl]
  | index i =>
    obtain ⟨xs, rfl, hi⟩ := get_index_eq_ok_iff.1 h
    rw [set_index_list hi]
    refine get_index_eq_ok_iff.2 ⟨_, rfl, ?_⟩
    exact List.getElem?_set_self (List.getElem?_eq_some_iff.1 hi).1

/-- Of two writes to one place the second counts. -/
lemma set_set_step (h : get label [step] v = .ok c) (path : Path) (value w : Stored) :
    set path w [step] (set path value [step] v).1 = set path w [step] v := by
  cases step with
  | key k =>
    obtain ⟨fields, rfl, -⟩ := get_key_eq_ok_iff.1 h
    show (map (Fields.insert k w (Fields.insert k value fields)), _) = _
    rw [Fields.insert_insert]
    rfl
  | index i =>
    obtain ⟨xs, rfl, hi⟩ := get_index_eq_ok_iff.1 h
    have hset : (xs.set i.toNat value)[i.toNat]? = some value :=
      List.getElem?_set_self (List.getElem?_eq_some_iff.1 hi).1
    rw [set_index_list hi, set_index_list hi]
    show set path w [.index i] (list (xs.set i.toNat value)) = (list (xs.set i.toNat w), _)
    rw [set_index_list hset, List.set_set]
    rfl

/-- Nothing changes when what was read is written. -/
lemma set_get_step (hv : v.Ordered) (h : get label [step] v = .ok c) (path : Path) :
    (set path c [step] v).1 = v := by
  cases step with
  | key k =>
    obtain ⟨fields, rfl, hk⟩ := get_key_eq_ok_iff.1 h
    exact (insert_eq_self_iff hv).2 hk
  | index i =>
    obtain ⟨xs, rfl, hi⟩ := get_index_eq_ok_iff.1 h
    rw [set_index_list hi]
    exact (set_list_eq_self_iff hi).2 rfl

end OneStep

/-- Only the errors tell for which path is written. -/
lemma set_fst_eq (path label : Path) (value : Stored) (steps : List Step) (v : Stored) :
    (set label value steps v).1 = (set path value steps v).1 := by
  induction steps generalizing v with
  | nil => rfl
  | cons step rest ih =>
    cases step with
    | key k =>
      cases v with
      | map fields =>
        rw [set_key_map, set_key_map]
        exact congrArg (fun child => map (Fields.insert k child fields)) (ih _)
      | _ => rfl
    | index i =>
      cases v with
      | list xs =>
        rw [set, set]
        cases xs[i.toNat]? with
        | none => rfl
        | some c => exact congrArg (fun child => list (xs.set i.toNat child)) (ih c)
      | _ => rfl

/-- A write behind steps writes into the value that they lead to, and puts that back. -/
lemma set_append (h : get label before v = .ok c) (path : Path) (value : Stored)
    (rest : List Step) :
    set path value (before ++ rest) v
      = ((set path (set path value rest c).1 before v).1, (set path value rest c).2) := by
  induction before generalizing v with
  | nil =>
    cases h
    rfl
  | cons step before ih =>
    obtain ⟨d, hd, hc⟩ := get_cons_eq_ok_iff.1 h
    rw [List.cons_append, set_cons hd, ih hc, set_cons hd path _ before]

/-- Of two values written to one path the later one stays. -/
lemma set_set (h : get label steps v = .ok c) (path : Path) (value w : Stored) :
    set path w steps (set path value steps v).1 = set path w steps v := by
  induction steps generalizing v with
  | nil => rfl
  | cons step rest ih =>
    obtain ⟨d, hd, hc⟩ := get_cons_eq_ok_iff.1 h
    rw [set_cons hd path value, set_cons (get_set_step hd ..), ih hc, set_set_step hd,
      ← set_cons hd]

/-- Writing the value that is there changes nothing. -/
lemma set_get (hv : v.Ordered) (h : get label steps v = .ok c) (path : Path) :
    set path c steps v = (v, .ok ()) := by
  induction steps generalizing v with
  | nil =>
    cases h
    rfl
  | cons step rest ih =>
    obtain ⟨d, hd, hc⟩ := get_cons_eq_ok_iff.1 h
    rw [set_cons hd, ih (hv.of_get hd) hc, set_get_step hv hd]

/-- A write to a path that leads somewhere succeeds. -/
lemma set_eq_ok_of_get (h : get label steps v = .ok c) (path : Path) (value : Stored) :
    (set path value steps v).2 = .ok () := by
  rw [← List.append_nil steps, set_append h]
  rfl

/-- What was written is read again. -/
lemma get_set (h : (set path value steps v).2 = .ok ()) (label : Path) :
    get label steps (set path value steps v).1 = .ok value := by
  fun_induction set path value steps v with
  | case1 => rfl
  | case2 k rest fields child result hset ih =>
    rw [hset] at ih
    rw [get_key_map, Fields.get?_insert, if_pos rfl]
    exact ih h
  | case4 i rest xs v hi child result hset ih =>
    rw [hset] at ih
    rw [get_index_list, List.getElem?_set_self (List.getElem?_eq_some_iff.1 hi).1]
    exact ih h
  | case3 | case5 | case6 => cases h

/-- A write changes nothing that other steps lead to, unless they lead to its place or through
it. -/
lemma get_set_of_diverges {others : List Step} (h : ¬ steps <+: others) (h' : ¬ others <+: steps)
    (path label : Path) (value v : Stored) :
    get label others (set path value steps v).1 = get label others v := by
  fun_induction set path value steps v generalizing others with
  | case1 => exact absurd List.nil_prefix h
  | case2 k rest fields child result hset ih =>
    rw [hset] at ih
    cases others with
    | nil => exact absurd List.nil_prefix h'
    | cons step others =>
      cases step with
      | index j => rfl
      | key l =>
        rw [get_key_map, get_key_map, Fields.get?_insert]
        by_cases hl : l = k
        · subst hl
          rw [List.prefix_cons_inj] at h h'
          rw [if_pos rfl, Option.elim_some, ih h h']
          cases Fields.get? l fields with
          | some c => rfl
          | none =>
            -- the map is new, and in it the other steps find nothing either
            refine get_map_nil label ?_
            rintro rfl
            exact h' List.nil_prefix
        · rw [if_neg hl]
  | case4 i rest xs v hi child result hset ih =>
    rw [hset] at ih
    cases others with
    | nil => exact absurd List.nil_prefix h'
    | cons step others =>
      cases step with
      | key l => rfl
      | index j =>
        rw [get_index_list, get_index_list]
        by_cases hj : j = i
        · subst hj
          rw [List.prefix_cons_inj] at h h'
          rw [List.getElem?_set_self (List.getElem?_eq_some_iff.1 hi).1, hi]
          exact ih h h'
        · have hne : i.toNat ≠ j.toNat := fun heq => hj (UInt64.toNat_inj.1 heq).symm
          rw [List.getElem?_set_ne hne]
  | case3 | case5 | case6 => rfl

/-- A write behind a missing name writes into a new map. -/
lemma set_missing {k : String} {fields : Fields Stored} (hk : Fields.get? k fields = none)
    (path : Path) (value : Stored) (rest : List Step) :
    set path value (.key k :: rest) (.map fields)
      = (.map (Fields.insert k (set path value rest (.map [])).1 fields),
        (set path value rest (.map [])).2) := by
  rw [set_key_map, hk]
  rfl

/-- The steps lead somewhere, or into a map that lacks the next name, and only names come behind
it. -/
def Writable (path : Path) (steps : List Step) (v : Stored) : Prop :=
  (∃ w, get path steps v = .ok w) ∨ ∃ after, Misses path steps v after ∧ ∀ i, .index i ∉ after

/-- A place behind a missing name can be written exactly if the path has only names from there on.
-/
lemma writable_missing_iff {k : String} {fields : Fields Stored}
    (hk : Fields.get? k fields = none) :
    Writable path (.key k :: steps) (.map fields) ↔ ∀ i, .index i ∉ steps := by
  simp only [Writable, get_key_map, hk, Option.elim_none, reduceCtorEq, exists_false, false_or,
    misses_missing_iff hk, exists_eq_left']

/-- If the first step leads to a value, then a place can be written exactly if it can from there. -/
lemma writable_child_iff (hw : get path [step] v = .ok w) :
    Writable path (step :: steps) v ↔ Writable path steps w := by
  unfold Writable
  rw [get_cons, hw]
  simp only [misses_child_iff hw]
  rfl

/-- A step that leads nowhere cannot be written through, unless it is a name in a map. -/
lemma not_writable (hmap : ∀ k fields, step = .key k → v ≠ .map fields)
    (hget : ∀ w, get path [step] v ≠ .ok w) : ¬ Writable path (step :: steps) v := by
  rintro (⟨w, hw⟩ | ⟨after, hmisses, -⟩)
  · obtain ⟨c, hc, -⟩ := get_cons_eq_ok_iff.1 hw
    exact hget c hc
  · exact not_misses hmap hget hmisses

/-- A write succeeds exactly if its steps can be written. -/
lemma set_eq_ok_iff (value : Stored) :
    (set path value steps v).2 = .ok () ↔ Writable path steps v := by
  fun_induction set path value steps v with
  | case1 v => exact iff_of_true rfl (.inl ⟨v, rfl⟩)
  | case2 k rest fields child result hset ih =>
    rw [hset] at ih
    cases hk : Fields.get? k fields with
    | none =>
      rw [hk, Option.getD_none] at hset
      rw [writable_missing_iff hk, ← not_exists, ← set_map_nil_fails_iff path value, hset]
      exact eq_ok_unit_iff
    | some c =>
      rw [hk, Option.getD_some] at ih
      rw [writable_child_iff (get_key_eq_ok_iff.2 ⟨fields, rfl, hk⟩)]
      exact ih
  | case4 i rest xs c hi child result hset ih =>
    rw [hset] at ih
    rw [writable_child_iff (get_index_eq_ok_iff.2 ⟨xs, rfl, hi⟩)]
    exact ih
  | case3 k rest v hv =>
    refine iff_of_false (by simp) ?_
    exact not_writable (fun _ fields _ => hv fields) fun w => get_key_ne_ok hv
  | case5 i rest xs hi =>
    refine iff_of_false (by simp) ?_
    exact not_writable (by simp) fun w => get_index_ne_ok_of_none hi
  | case6 i rest v hv =>
    refine iff_of_false (by simp) ?_
    exact not_writable (by simp) fun w => get_index_ne_ok hv

/-- The maps that a write makes for steps before it comes to an index. -/
def scaffold : List Step → Stored
  | .key k :: rest => .map [(k, scaffold rest)]
  | _ => .map []

/-- A write into a new map that fails leaves the maps for the names before the index. -/
lemma set_map_nil_of_index {i : UInt64} (h : .index i ∈ steps) (path : Path) (value : Stored) :
    (set path value steps (.map [])).1 = scaffold steps := by
  induction steps with
  | nil => cases h
  | cons step rest ih =>
    cases step with
    | index j => rfl
    | key k =>
      have hrest : .index i ∈ rest := (List.mem_cons.1 h).resolve_left nofun
      show Stored.map [(k, (set path value rest (.map [])).1)] = .map [(k, scaffold rest)]
      rw [ih hrest]

end Stored

namespace Item

variable {item : Item} {path : Path} {value : Stored}

/-- A rooted path is read step by step in the item as a map. -/
lemma get_eq_of_isRooted (h : path.IsRooted) :
    item.get path = Stored.get path path.steps (.map item) := by
  rw [Item.get, h.fromRoot]

/-- A rooted path is written step by step in the item as a map. -/
lemma set_eq_of_isRooted (h : path.IsRooted) (item : Item) (value : Stored) :
    Stored.set path value path.steps (.map item)
      = (.map (item.set path value).1, (item.set path value).2) := by
  rw [← h.fromRoot]
  exact set_eq_ofMap item path value

/-- A write that fails leaves the item as it was exactly if it does not break off. If a name is
missing on its way, then it leaves the item that a write to that name leaves, of maps for the names
behind it. -/
theorem set_fails_leaves (h : item.Ordered)
    (hfails : ∃ e, (item.set path value).2 = .error e) :
    ((item.set path value).1 = item ↔ ¬ item.BreaksOff path)
      ∧ ∀ before k after fields, path.fromRoot = before ++ .key k :: after →
        Stored.get path before (.map item) = .ok (.map fields) → Fields.get? k fields = none →
        item.set ⟨before ++ [.key k]⟩ (Stored.scaffold after)
          = ((item.set path value).1, .ok ()) := by
  constructor
  · rw [← set_fails_changed_iff h path value, and_iff_right hfails, not_not]
  · intro before k after fields hsteps hget hk
    have hrooted : Path.IsRooted ⟨before ++ [.key k]⟩ := by
      have hroot : Path.IsRooted ⟨before ++ [.key k] ++ after⟩ := by
        rw [List.append_assoc, List.singleton_append, ← hsteps]
        exact ⟨_, _, rfl⟩
      exact hroot.of_append (List.concat_ne_nil _ _)
    have hwrite := set_eq_ofMap item path value
    rw [hsteps, Stored.set_append hget, Stored.set_missing hk] at hwrite
    obtain ⟨hafter, hresult⟩ := Prod.mk.inj hwrite
    -- the write fails in the new map, so that it needs an index there
    obtain ⟨i, hi⟩ : ∃ i, .index i ∈ after := by
      rw [← Stored.set_map_nil_fails_iff path value, hresult]
      exact hfails
    rw [Stored.set_map_nil_of_index hi] at hafter
    have hmaps := set_eq_of_isRooted hrooted item (Stored.scaffold after)
    rw [Stored.set_append hget, Stored.set_fst_eq path] at hmaps
    obtain ⟨hmaps, hok⟩ := Prod.mk.inj hmaps
    exact Prod.ext (Stored.map.inj (hmaps.symm.trans hafter)) hok.symm

/-- Empty maps are left for the names before the index. -/
theorem set_fails_leaves_maps :
    let item : Item := [("a", .map [])]
    let path : Path := ⟨[.key "a", .key "b", .key "c", .index 0]⟩
    item.Ordered ∧ (∃ e, (item.set path (.bool true)).2 = .error e)
      ∧ item.set ⟨[.key "a", .key "b"]⟩ (.map [("c", .map [])])
        = ((item.set path (.bool true)).1, .ok ()) := by
  intro item path
  have hitem : item.Ordered := by
    simp [item, Item.Ordered, Stored.Ordered, Stored.FieldsOrdered, Fields.Ordered]
  refine ⟨hitem, ⟨_, rfl⟩, ?_⟩
  exact (set_fails_leaves hitem ⟨_, rfl⟩).2 [.key "a"] "b" [.key "c", .index 0] [] rfl rfl rfl

/-- A write behind a missing list fails, and leaves an empty map in place of the list. -/
theorem set_missing_list :
    let item : Item := []
    let path : Path := ⟨[.key "a", .index 0]⟩
    item.set path (.string "x") = ([("a", .map [])], .error (.unsupported (.indexing path)))
      ∧ (item.set path (.string "x")).1 ≠ item :=
  ⟨rfl, nofun⟩

/-- A write succeeds exactly if its path is one attribute, or leads somewhere, or leads into a map
that lacks the next name and only names come behind it. Then the path leads to what was written.
Other paths that neither lead to its place nor through it lead to what they led to before. -/
theorem get_after_set (hpath : path.IsRooted) (item : Item) (value : Stored) :
    ((item.set path value).2 = .ok ()
      ↔ path.steps.length = 1 ∨ (∃ v, item.get path = .ok v)
        ∨ ∃ after, Stored.Misses path path.steps (.map item) after ∧ ∀ i, .index i ∉ after)
    ∧ ((item.set path value).2 = .ok () → (item.set path value).1.get path = .ok value)
    ∧ ∀ q : Path, q.IsRooted → ¬ q.steps <+: path.steps → ¬ path.steps <+: q.steps →
        (item.set path value).1.get q = item.get q := by
  have hset := set_eq_of_isRooted hpath item value
  refine ⟨?_, fun hok => ?_, fun q hq hprefix hextends => ?_⟩
  · have hwritable : (item.set path value).2 = .ok ()
        ↔ Stored.Writable path path.steps (.map item) := by
      rw [← Stored.set_eq_ok_iff value, hset]
    rw [get_eq_of_isRooted hpath]
    constructor
    · exact fun hok => .inr (hwritable.1 hok)
    · rintro (hone | hwrites)
      · obtain ⟨step, hsteps⟩ := List.length_eq_one_iff.1 hone
        rw [Item.set, hsteps]
        rfl
      · exact hwritable.2 hwrites
  · rw [get_eq_of_isRooted hpath]
    have hwritten : (Stored.set path value path.steps (.map item)).2 = .ok () := by
      rw [hset]
      exact hok
    have hget := Stored.get_set hwritten path
    rwa [hset] at hget
  · have hget := Stored.get_set_of_diverges hextends hprefix path q value (.map item)
    rw [hset] at hget
    rw [get_eq_of_isRooted hq, get_eq_of_isRooted hq]
    exact hget

/-- A write into a list makes a map, and leaves a field beside it. -/
theorem get_after_set_nested :
    let item : Item := [("a", .list [.map [("d", .bool true)]])]
    let path : Path := ⟨[.key "a", .index 0, .key "b", .key "c"]⟩
    let after := (item.set path (.string "x")).1
    path.IsRooted ∧ (item.set path (.string "x")).2 = .ok () ∧ after.get path = .ok (.string "x")
      ∧ after.get ⟨[.key "a", .index 0, .key "d"]⟩ = .ok (.bool true) := by
  intro item path after
  have hpath : path.IsRooted := ⟨_, _, rfl⟩
  obtain ⟨-, hget, hothers⟩ := get_after_set hpath item (.string "x")
  refine ⟨hpath, rfl, hget rfl, ?_⟩
  exact hothers ⟨[.key "a", .index 0, .key "d"]⟩ ⟨_, _, rfl⟩ (by decide) (by decide)

end Item

end TableQuery
