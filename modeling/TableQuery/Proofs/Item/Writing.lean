import TableQuery.Item
import TableQuery.Proofs.Except
import TableQuery.Proofs.Stored.Codec

/-!
# Writing into items

What a write leaves behind. One that succeeds, and a removal, keep the fields of every map in order.
One that fails leaves the item as it was, unless it breaks off: the path leads into a map that lacks
the next name, and behind that name it has an index. Then the maps on its way to the index stay.
-/

namespace TableQuery

namespace Stored

variable {path parent : Path} {value v w removed : Stored} {steps : List Step}

/-- A map without fields is in order. -/
lemma ordered_map_nil : (Stored.map []).Ordered :=
  ⟨.nil, trivial⟩

/-- A field that is inserted into an ordered map leaves it ordered. -/
lemma Ordered.insert {k : String} {fields : Fields Stored} (h : (map fields).Ordered)
    (hv : v.Ordered) : (map (Fields.insert k v fields)).Ordered := by
  refine ⟨h.1.insert k v, fieldsOrdered_iff.2 fun field hfield => ?_⟩
  rcases Fields.mem_insert hfield with rfl | hfield
  · exact hv
  · exact fieldsOrdered_iff.1 h.2 field hfield

/-- A field that is removed from an ordered map leaves it ordered. -/
lemma Ordered.erase {fields : Fields Stored} (h : (map fields).Ordered) (k : String) :
    (map (Fields.erase k fields)).Ordered := by
  refine ⟨h.1.erase k, fieldsOrdered_iff.2 fun field hfield => ?_⟩
  exact fieldsOrdered_iff.1 h.2 field ((Fields.erase_sublist k fields).subset hfield)

/-- The values in an ordered map are ordered. -/
lemma Ordered.of_get? {k : String} {fields : Fields Stored} (h : (map fields).Ordered)
    (hv : Fields.get? k fields = some v) : v.Ordered :=
  fieldsOrdered_iff.1 h.2 _ (Fields.mem_of_get? hv)

/-- The map that a write makes for a name that is missing is in order. -/
lemma Ordered.getD {k : String} {fields : Fields Stored} (h : (map fields).Ordered) :
    ((Fields.get? k fields).getD (map [])).Ordered := by
  cases hv : Fields.get? k fields with
  | none => exact ordered_map_nil
  | some v => exact h.of_get? hv

/-- The elements of an ordered list are ordered. -/
lemma Ordered.getElem? {i : Nat} {xs : List Stored} (h : (list xs).Ordered) (hv : xs[i]? = some v) :
    v.Ordered :=
  allOrdered_iff.1 h v (List.mem_of_getElem? hv)

/-- An ordered value may take the place of an element. -/
lemma Ordered.set_list {i : Nat} {xs : List Stored} (h : (list xs).Ordered) (hv : v.Ordered) :
    (list (xs.set i v)).Ordered := by
  refine allOrdered_iff.2 fun u hu => ?_
  rcases List.mem_or_eq_of_mem_set hu with hu | rfl
  · exact allOrdered_iff.1 h u hu
  · exact hv

/-- An element that is removed from an ordered list leaves it ordered. -/
lemma Ordered.eraseIdx {xs : List Stored} (h : (list xs).Ordered) (i : Nat) :
    (list (xs.eraseIdx i)).Ordered :=
  allOrdered_iff.2 fun u hu => allOrdered_iff.1 h u (List.mem_of_mem_eraseIdx hu)

/-- A write keeps the fields of every map in order, whether it succeeds or not. -/
lemma ordered_set (hvalue : value.Ordered) (h : v.Ordered) :
    (set path value steps v).1.Ordered := by
  fun_induction set path value steps v with
  | case1 => exact hvalue
  | case2 k rest fields child result hset ih =>
    have hchild := ih h.getD
    rw [hset] at hchild
    exact h.insert hchild
  | case4 i rest xs v hi child result hset ih =>
    have hchild := ih (h.getElem? hi)
    rw [hset] at hchild
    exact h.set_list hchild
  | case3 | case5 | case6 => exact h

/-- The removal of one step leaves what is in order in order. -/
lemma ordered_removeStep {step : Step} (h : v.Ordered)
    (hremove : removeStep path step v = .ok (removed, w)) : w.Ordered := by
  unfold removeStep at hremove
  split at hremove
  next k fields =>
    split at hremove <;> cases hremove
    exact h.erase k
  next => cases hremove
  next i xs =>
    split at hremove <;> cases hremove
    exact h.eraseIdx i.toNat
  next => cases hremove

/-- A removal keeps the fields of every map in order. -/
lemma ordered_remove (h : v.Ordered)
    (hremove : remove path parent steps v = .ok (removed, w)) : w.Ordered := by
  fun_induction remove path parent steps v generalizing w with
  | case2 last v => exact ordered_removeStep h hremove
  | case3 k next rest fields v hk ih =>
    obtain ⟨⟨_, child⟩, hchild, hw⟩ := bind_eq_ok_iff.1 hremove
    cases hw
    exact h.insert (ih (h.of_get? hk) hchild)
  | case6 i next rest xs v hi ih =>
    obtain ⟨⟨_, child⟩, hchild, hw⟩ := bind_eq_ok_iff.1 hremove
    cases hw
    exact h.set_list (ih (h.getElem? hi) hchild)
  | case1 | case4 | case5 | case7 | case8 => cases hremove

/-- A write through the steps breaks off: they lead into a map that lacks the next name, and an
index comes behind that name, where a new map can have none. -/
def BreaksOff (path : Path) (steps : List Step) (v : Stored) : Prop :=
  ∃ before k after fields, steps = before ++ .key k :: after
    ∧ get path before v = .ok (.map fields) ∧ Fields.get? k fields = none
    ∧ ∃ i, .index i ∈ after

/-- A path leads where its other steps lead from the value at its first. -/
lemma get_cons (step : Step) (steps : List Step) :
    get path (step :: steps) v = get path [step] v >>= get path steps := by
  cases step with
  | key k =>
    cases v with
    | map fields =>
      rw [get, get]
      cases Fields.get? k fields <;> rfl
    | _ => rfl
  | index i =>
    cases v with
    | list xs =>
      rw [get, get]
      cases xs[i.toNat]? <;> rfl
    | _ => rfl

/-- A name leads somewhere exactly in a map that has a field for it. -/
lemma get_key_eq_ok_iff {k : String} :
    get path [.key k] v = .ok w ↔ ∃ fields, v = .map fields ∧ Fields.get? k fields = some w := by
  cases v with
  | map fields =>
    rw [get]
    cases hk : Fields.get? k fields <;> simp [get, hk]
  | _ => exact iff_of_false nofun nofun

/-- An index leads somewhere exactly in a list that has an element there. -/
lemma get_index_eq_ok_iff {i : UInt64} :
    get path [.index i] v = .ok w ↔ ∃ xs, v = .list xs ∧ xs[i.toNat]? = some w := by
  cases v with
  | list xs =>
    rw [get]
    cases hi : xs[i.toNat]? <;> simp [get, hi]
  | _ => exact iff_of_false nofun nofun

/-- A name leads nowhere in a value that is not a map. -/
lemma get_key_ne_ok {k : String} (hv : ∀ fields, v ≠ .map fields) :
    get path [.key k] v ≠ .ok w := by
  intro hw
  obtain ⟨fields, hfields, -⟩ := get_key_eq_ok_iff.1 hw
  exact hv fields hfields

/-- An index leads nowhere in a value that is not a list. -/
lemma get_index_ne_ok {i : UInt64} (hv : ∀ xs, v ≠ .list xs) : get path [.index i] v ≠ .ok w := by
  intro hw
  obtain ⟨xs, hxs, -⟩ := get_index_eq_ok_iff.1 hw
  exact hv xs hxs

/-- An index behind the end of a list leads nowhere. -/
lemma get_index_ne_ok_of_none {i : UInt64} {xs : List Stored} (hi : xs[i.toNat]? = none) :
    get path [.index i] (.list xs) ≠ .ok w := by
  intro hw
  obtain ⟨_, ⟨⟩, hw⟩ := get_index_eq_ok_iff.1 hw
  cases hi.symm.trans hw

/-- The steps lead into a map that lacks the next name; `after` are the steps behind that name. -/
def Misses (path : Path) (steps : List Step) (v : Stored) (after : List Step) : Prop :=
  ∃ before k fields, steps = before ++ .key k :: after
    ∧ get path before v = .ok (.map fields) ∧ Fields.get? k fields = none

variable {after : List Step}

/-- A write breaks off where its steps miss a name that has an index behind it. -/
lemma breaksOff_iff :
    BreaksOff path steps v ↔ ∃ after, Misses path steps v after ∧ ∃ i, .index i ∈ after := by
  constructor
  · rintro ⟨before, k, after, fields, hsteps, hget, hk, hi⟩
    exact ⟨after, ⟨before, k, fields, hsteps, hget, hk⟩, hi⟩
  · rintro ⟨after, ⟨before, k, fields, hsteps, hget, hk⟩, hi⟩
    exact ⟨before, k, after, fields, hsteps, hget, hk, hi⟩

/-- Without steps no name is missed. -/
lemma not_misses_nil : ¬ Misses path [] v after := by
  rintro ⟨before, k, fields, hsteps, -⟩
  cases before <;> cases hsteps

/-- The first name is missing, or one behind the value that the first step leads to. -/
lemma misses_cons_iff {step : Step} :
    Misses path (step :: steps) v after
      ↔ (∃ k fields, step = .key k ∧ v = .map fields ∧ Fields.get? k fields = none
          ∧ steps = after)
        ∨ ∃ child, get path [step] v = .ok child ∧ Misses path steps child after := by
  constructor
  · rintro ⟨before, k, fields, hsteps, hget, hk⟩
    cases before with
    | nil =>
      cases hsteps
      cases hget
      exact .inl ⟨k, fields, rfl, rfl, hk, rfl⟩
    | cons first before =>
      cases hsteps
      rw [get_cons, bind_eq_ok_iff] at hget
      obtain ⟨child, hchild, hget⟩ := hget
      exact .inr ⟨child, hchild, before, k, fields, rfl, hget, hk⟩
  · rintro (⟨k, fields, rfl, rfl, hk, rfl⟩ | ⟨child, hchild, before, k, fields, rfl, hget, hk⟩)
    · exact ⟨[], k, fields, rfl, rfl, hk⟩
    · refine ⟨step :: before, k, fields, rfl, ?_, hk⟩
      rw [get_cons, hchild]
      exact hget

/-- If the first name is missing, then the steps that come behind it are all the others. -/
lemma misses_missing_iff {k : String} {fields : Fields Stored}
    (hk : Fields.get? k fields = none) :
    Misses path (.key k :: steps) (.map fields) after ↔ steps = after := by
  rw [misses_cons_iff]
  constructor
  · rintro (⟨_, _, -, -, -, hsteps⟩ | ⟨child, hchild, -⟩)
    · exact hsteps
    · obtain ⟨_, ⟨⟩, hchild⟩ := get_key_eq_ok_iff.1 hchild
      cases hk.symm.trans hchild
  · exact fun hsteps => .inl ⟨k, fields, rfl, rfl, hk, hsteps⟩

/-- If the first step leads to a value, then a name is missed by the other steps from there. -/
lemma misses_child_iff {step : Step} (hw : get path [step] v = .ok w) :
    Misses path (step :: steps) v after ↔ Misses path steps w after := by
  rw [misses_cons_iff]
  constructor
  · rintro (⟨k, _, rfl, rfl, hk, -⟩ | ⟨child, hchild, hmisses⟩)
    · obtain ⟨_, ⟨⟩, hw⟩ := get_key_eq_ok_iff.1 hw
      cases hk.symm.trans hw
    · cases hw.symm.trans hchild
      exact hmisses
  · exact fun hmisses => .inr ⟨w, hw, hmisses⟩

/-- No name is missing where the first step finds the wrong kind of value. -/
lemma not_misses {step : Step} (hmap : ∀ k fields, step = .key k → v ≠ .map fields)
    (hget : ∀ w, get path [step] v ≠ .ok w) : ¬ Misses path (step :: steps) v after := by
  rw [misses_cons_iff]
  rintro (⟨k, fields, hstep, hv, -⟩ | ⟨w, hw, -⟩)
  · exact hmap k fields hstep hv
  · exact hget w hw

/-- A write without steps does not break off. -/
lemma not_breaksOff_nil : ¬ BreaksOff path [] v := by
  rw [breaksOff_iff]
  rintro ⟨after, hmisses, -⟩
  exact not_misses_nil hmisses

/-- If the first name is missing, then a write breaks off exactly if an index comes behind it. -/
lemma breaksOff_missing_iff {k : String} {fields : Fields Stored}
    (hk : Fields.get? k fields = none) :
    BreaksOff path (.key k :: steps) (.map fields) ↔ ∃ i, .index i ∈ steps := by
  simp only [breaksOff_iff, misses_missing_iff hk, exists_eq_left']

/-- If the first step leads to a value, then a write breaks off exactly if it does from there. -/
lemma breaksOff_child_iff {step : Step} (hw : get path [step] v = .ok w) :
    BreaksOff path (step :: steps) v ↔ BreaksOff path steps w := by
  simp only [breaksOff_iff, misses_child_iff hw]

/-- A write that fails at its first step breaks nothing off. -/
lemma not_breaksOff {step : Step} (hmap : ∀ k fields, step = .key k → v ≠ .map fields)
    (hget : ∀ w, get path [step] v ≠ .ok w) : ¬ BreaksOff path (step :: steps) v := by
  rw [breaksOff_iff]
  rintro ⟨after, hmisses, -⟩
  exact not_misses hmap hget hmisses

/-- A write into a new map fails exactly if it needs an index. -/
lemma set_map_nil_fails_iff (path : Path) (value : Stored) :
    (∃ e, (set path value steps (.map [])).2 = .error e) ↔ ∃ i, .index i ∈ steps := by
  induction steps with
  | nil => exact iff_of_false nofun nofun
  | cons step rest ih =>
    cases step with
    | key k =>
      change (∃ e, (set path value rest (.map [])).2 = .error e) ↔ _
      rw [ih]
      simp
    | index i => exact iff_of_true ⟨_, rfl⟩ ⟨i, List.mem_cons_self⟩

/-- A map with a field written is the map before exactly if the field was there. -/
lemma insert_eq_self_iff {k : String} {fields : Fields Stored} (h : (map fields).Ordered) :
    map (Fields.insert k w fields) = map fields ↔ Fields.get? k fields = some w := by
  constructor
  · intro heq
    rw [← map.inj heq, Fields.get?_insert, if_pos rfl]
  · intro hw
    rw [h.1.insert_eq_self hw]

/-- An element changes a list unless it is the one that was there. -/
lemma set_list_eq_self_iff {i : Nat} {xs : List Stored} (hv : xs[i]? = some v) :
    list (xs.set i w) = list xs ↔ v = w := by
  obtain ⟨hi, rfl⟩ := List.getElem?_eq_some_iff.1 hv
  constructor
  · intro heq
    have hw : (xs.set i w)[i]? = some w := List.getElem?_set_self hi
    rw [list.inj heq, hv] at hw
    exact Option.some.inj hw
  · rintro rfl
    rw [List.set_getElem_self]

/-- A write fails and leaves something else behind exactly if it breaks off. -/
lemma set_fails_changed_iff (h : v.Ordered) :
    (∃ e, (set path value steps v).2 = .error e) ∧ (set path value steps v).1 ≠ v
      ↔ BreaksOff path steps v := by
  fun_induction set path value steps v with
  | case1 v => exact iff_of_false nofun not_breaksOff_nil
  | case2 k rest fields child result hset ih =>
    dsimp only
    rw [ne_eq, insert_eq_self_iff h]
    cases hk : Fields.get? k fields with
    | none =>
      -- the name is missing, so that the map is another one even if the write fails
      rw [hk, Option.getD_none] at hset
      rw [breaksOff_missing_iff hk, ← set_map_nil_fails_iff path value, hset]
      exact and_iff_left nofun
    | some c =>
      rw [hk, Option.getD_some] at hset ih
      rw [breaksOff_child_iff (get_key_eq_ok_iff.2 ⟨fields, rfl, hk⟩), ← ih (h.of_get? hk), hset,
        Option.some_inj, ne_comm]
  | case4 i rest xs v hi child result hset ih =>
    dsimp only
    rw [breaksOff_child_iff (get_index_eq_ok_iff.2 ⟨xs, rfl, hi⟩), ← ih (h.getElem? hi), hset,
      ne_eq, set_list_eq_self_iff hi, ne_comm]
  | case3 k rest v hv =>
    refine iff_of_false (fun hfailed => hfailed.2 rfl) ?_
    exact not_breaksOff (fun _ fields _ => hv fields) fun w => get_key_ne_ok hv
  | case5 i rest xs hi =>
    refine iff_of_false (fun hfailed => hfailed.2 rfl) ?_
    exact not_breaksOff nofun fun w => get_index_ne_ok_of_none hi
  | case6 i rest v hv =>
    refine iff_of_false (fun hfailed => hfailed.2 rfl) ?_
    exact not_breaksOff nofun fun w => get_index_ne_ok hv

end Stored

namespace Item

variable {item after : Item} {path : Path} {value removed : Stored}

/-- The fields of an item and of every map in it are in the order of their names. -/
def Ordered (item : Item) : Prop :=
  (Stored.map item).Ordered

/-- A write to a path of the item breaks off. -/
def BreaksOff (item : Item) (path : Path) : Prop :=
  Stored.BreaksOff path path.fromRoot (.map item)

/-- An item is written as the map that it is. -/
lemma set_eq_ofMap (item : Item) (path : Path) (value : Stored) :
    Stored.set path value path.fromRoot (.map item)
      = (.map (item.set path value).1, (item.set path value).2) :=
  rfl

/-- A write keeps an item in order, whether it succeeds or not. -/
lemma Ordered.set (h : item.Ordered) (path : Path) (hvalue : value.Ordered) :
    (item.set path value).1.Ordered := by
  change (Stored.set path value path.fromRoot (.map item)).1.Ordered
  exact Stored.ordered_set hvalue h

/-- A removal keeps an item in order. -/
lemma Ordered.remove (h : item.Ordered) (hremove : item.remove path = .ok (removed, after)) :
    after.Ordered := by
  unfold Item.remove at hremove
  dsimp only at hremove
  split at hremove
  next => cases hremove
  next =>
    split at hremove <;> cases hremove
    exact Stored.Ordered.erase h path.root
  next rest _ =>
    split at hremove
    next v hv =>
      obtain ⟨⟨_, child⟩, hchild, hafter⟩ := bind_eq_ok_iff.1 hremove
      cases hafter
      exact Stored.Ordered.insert h (Stored.ordered_remove (Stored.Ordered.of_get? h hv) hchild)
    next => cases hremove

/-- A write fails and leaves another item behind exactly if it breaks off. -/
theorem set_fails_changed_iff (h : item.Ordered) (path : Path) (value : Stored) :
    (∃ e, (item.set path value).2 = .error e) ∧ (item.set path value).1 ≠ item
      ↔ item.BreaksOff path := by
  unfold BreaksOff
  rw [← Stored.set_fails_changed_iff h, set_eq_ofMap]
  exact and_congr_right fun _ => not_congr ⟨congrArg Stored.map, Stored.map.inj⟩

end Item

end TableQuery
