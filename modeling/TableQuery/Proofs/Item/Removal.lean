import TableQuery.Proofs.Item.Lens

/-!
# Removing from items

A removal takes the value that its path leads to, and fails where there is none. It is one step at
the value that the path without its last step leads to, of which what is left is written back. So
what was removed at a name can be written back, an index moves the elements behind it to the front,
and nothing else changes. A removal that works in place leaves the item as it was when it fails.
-/

namespace TableQuery

namespace Stored

variable {path parent label : Path} {value v w c removed left : Stored} {step last : Step}
  {steps before rest : List Step}

/-- A name is removed exactly from a map that has a field for it. -/
lemma removeStep_key_eq_ok_iff {k : String} :
    removeStep path (.key k) v = .ok (removed, w)
      ↔ ∃ fields, v = .map fields ∧ Fields.get? k fields = some removed
        ∧ .map (Fields.erase k fields) = w := by
  cases v with
  | map fields =>
    rw [removeStep]
    cases hk : Fields.get? k fields <;> simp [hk]
  | _ => exact iff_of_false nofun nofun

/-- An index is removed exactly from a list that has an element there. -/
lemma removeStep_index_eq_ok_iff {i : UInt64} :
    removeStep path (.index i) v = .ok (removed, w)
      ↔ ∃ xs, v = .list xs ∧ xs[i.toNat]? = some removed ∧ .list (xs.eraseIdx i.toNat) = w := by
  cases v with
  | list xs =>
    rw [removeStep]
    cases hi : xs[i.toNat]? <;> simp [hi]
  | _ => exact iff_of_false nofun nofun

/-- What one step removes is what it leads to. -/
lemma exists_removeStep_iff (path label : Path) :
    (∃ w, removeStep path step v = .ok (removed, w)) ↔ get label [step] v = .ok removed := by
  cases step with
  | key k =>
    rw [get_key_eq_ok_iff]
    constructor
    · rintro ⟨w, hw⟩
      obtain ⟨fields, hv, hk, -⟩ := removeStep_key_eq_ok_iff.1 hw
      exact ⟨fields, hv, hk⟩
    · rintro ⟨fields, hv, hk⟩
      exact ⟨_, removeStep_key_eq_ok_iff.2 ⟨fields, hv, hk, rfl⟩⟩
  | index i =>
    rw [get_index_eq_ok_iff]
    constructor
    · rintro ⟨w, hw⟩
      obtain ⟨xs, hv, hi, -⟩ := removeStep_index_eq_ok_iff.1 hw
      exact ⟨xs, hv, hi⟩
    · rintro ⟨xs, hv, hi⟩
      exact ⟨_, removeStep_index_eq_ok_iff.2 ⟨xs, hv, hi, rfl⟩⟩

/-- A removal behind a step removes from the value that the step leads to, and puts the rest
back. -/
lemma remove_cons_eq_ok_iff (label : Path) (hsteps : steps ≠ []) :
    remove path parent (step :: steps) v = .ok (removed, w)
      ↔ ∃ c left, get label [step] v = .ok c ∧ remove path parent steps c = .ok (removed, left)
        ∧ (set path left [step] v).1 = w := by
  obtain ⟨next, rest, rfl⟩ := List.exists_cons_of_ne_nil hsteps
  cases step with
  | key k =>
    cases v with
    | map fields =>
      rw [remove, get_key_map]
      cases Fields.get? k fields with
      | none => exact iff_of_false nofun nofun
      | some c =>
        rw [bind_eq_ok_iff]
        constructor
        · rintro ⟨⟨_, left⟩, hleft, heq⟩
          cases heq
          exact ⟨c, left, rfl, hleft, rfl⟩
        · rintro ⟨_, left, ⟨⟩, hleft, rfl⟩
          exact ⟨(removed, left), hleft, rfl⟩
    | _ => exact iff_of_false nofun nofun
  | index i =>
    cases v with
    | list xs =>
      rw [remove, get_index_list]
      cases hi : xs[i.toNat]? with
      | none => exact iff_of_false nofun nofun
      | some c =>
        rw [bind_eq_ok_iff]
        constructor
        · rintro ⟨⟨_, left⟩, hleft, heq⟩
          cases heq
          refine ⟨c, left, rfl, hleft, ?_⟩
          rw [set_index_list hi]
          rfl
        · rintro ⟨_, left, ⟨⟩, hleft, rfl⟩
          refine ⟨(removed, left), hleft, ?_⟩
          rw [set_index_list hi]
          rfl
    | _ => exact iff_of_false nofun nofun

/-- A removal is one step at the value that the steps before lead to, of which what is left is
written back. -/
lemma remove_append_eq_ok_iff (label : Path) :
    remove path parent (before ++ [last]) v = .ok (removed, w)
      ↔ ∃ c left, get label before v = .ok c ∧ removeStep path last c = .ok (removed, left)
        ∧ (set path left before v).1 = w := by
  induction before generalizing v w with
  | nil =>
    constructor
    · exact fun h => ⟨v, w, rfl, h, rfl⟩
    · rintro ⟨_, _, ⟨⟩, h, rfl⟩
      exact h
  | cons step before ih =>
    rw [List.cons_append, remove_cons_eq_ok_iff label (by simp)]
    constructor
    · rintro ⟨d, rest, hd, hremove, rfl⟩
      obtain ⟨c, left, hc, hleft, rfl⟩ := ih.1 hremove
      refine ⟨c, left, get_cons_eq_ok_iff.2 ⟨d, hd, hc⟩, hleft, ?_⟩
      rw [set_cons hd]
    · rintro ⟨c, left, hc, hleft, rfl⟩
      obtain ⟨d, hd, hc⟩ := get_cons_eq_ok_iff.1 hc
      refine ⟨d, _, hd, ih.2 ⟨c, left, hc, hleft, rfl⟩, ?_⟩
      rw [set_cons hd path left before]

/-- What is removed is what the path leads to. -/
lemma exists_remove_iff (path parent label : Path) :
    (∃ w, remove path parent (before ++ [last]) v = .ok (removed, w))
      ↔ get label (before ++ [last]) v = .ok removed := by
  rw [get_append, bind_eq_ok_iff]
  simp only [remove_append_eq_ok_iff label, ← exists_removeStep_iff path label]
  constructor
  · rintro ⟨w, c, left, hc, hleft, -⟩
    exact ⟨c, hc, left, hleft⟩
  · rintro ⟨c, hc, left, hleft⟩
    exact ⟨_, c, left, hc, hleft, rfl⟩

/-- The steps before the last one lead to what the last one has left. -/
lemma remove_append_cases (h : remove path parent (before ++ [last]) v = .ok (removed, w))
    (label : Path) :
    ∃ c left, get label before v = .ok c ∧ removeStep path last c = .ok (removed, left)
      ∧ get label before w = .ok left ∧ (set path left before v).1 = w := by
  obtain ⟨c, left, hc, hleft, rfl⟩ := (remove_append_eq_ok_iff label).1 h
  exact ⟨c, left, hc, hleft, get_set (set_eq_ok_of_get hc path left) label, rfl⟩

/-- Where other steps leave the path before its last step, they lead to what they led to before. -/
lemma get_of_remove_of_diverges {others : List Step}
    (h : remove path parent (before ++ [last]) v = .ok (removed, w)) (hbefore : ¬ before <+: others)
    (hothers : ¬ others <+: before) (label : Path) : get label others w = get label others v := by
  obtain ⟨c, left, -, -, -, rfl⟩ := remove_append_cases h label
  exact get_set_of_diverges hbefore hothers path label left v

section Name

variable {k : String} (h : remove path parent (before ++ [.key k]) v = .ok (removed, w))
include h

/-- Where a name was removed nothing is found. -/
lemma get_of_remove_key (hv : v.Ordered) (label : Path) :
    get label (before ++ [.key k]) w = .error (.nameNotFound label) := by
  obtain ⟨c, left, hc, hstep, hleft, -⟩ := remove_append_cases h label
  obtain ⟨fields, rfl, -, rfl⟩ := removeStep_key_eq_ok_iff.1 hstep
  have hfields : Fields.Ordered fields := (hv.of_get hc).1
  rw [get_append_of_get hleft, get_key_map, hfields.get?_erase]
  rfl

/-- What other steps than through a removed name lead to is left. -/
lemma get_of_remove_key_of_diverges {others : List Step}
    (hothers : ¬ others <+: before ++ [.key k]) (hthrough : ¬ before ++ [.key k] <+: others)
    (label : Path) :
    get label others w = get label others v := by
  by_cases hbefore : before <+: others
  · obtain ⟨c, left, hc, hstep, hleft, -⟩ := remove_append_cases h label
    obtain ⟨fields, rfl, -, rfl⟩ := removeStep_key_eq_ok_iff.1 hstep
    obtain ⟨rest, rfl⟩ := hbefore
    rw [List.prefix_append_right_inj] at hothers hthrough
    rw [get_append_of_get hleft, get_append_of_get hc]
    cases rest with
    | nil => exact absurd List.nil_prefix hothers
    | cons step rest =>
      cases step with
      | index i => rfl
      | key l =>
        have hl : l ≠ k := by
          rintro rfl
          exact hthrough (List.prefix_append [.key l] rest)
        rw [get_key_map, get_key_map, Fields.get?_erase_of_ne hl]
  · have hsub : ¬ others <+: before :=
      fun hstart => hothers (hstart.trans (List.prefix_append ..))
    exact get_of_remove_of_diverges h hbefore hsub label

/-- A removed name is written back. -/
lemma set_of_remove_key (hv : v.Ordered) :
    set path removed (before ++ [.key k]) w = (v, .ok ()) := by
  obtain ⟨c, left, hc, hstep, hleft, hw⟩ := remove_append_cases h path
  obtain ⟨fields, rfl, hk, rfl⟩ := removeStep_key_eq_ok_iff.1 hstep
  have hback : set path removed [.key k] (.map (Fields.erase k fields))
      = (.map fields, .ok ()) := by
    have hfields : Fields.Ordered fields := (hv.of_get hc).1
    show (Stored.map (Fields.insert k removed (Fields.erase k fields)), _) = _
    rw [hfields.insert_erase hk]
  rw [set_append hleft, hback, ← hw, set_set hc, set_get hv hc]

end Name

section Element

variable {i j : UInt64} (h : remove path parent (before ++ [.index i]) v = .ok (removed, w))
include h

/-- The list that an element was removed from, before and after. -/
lemma get_of_remove_index (label : Path) :
    ∃ xs, get label before v = .ok (.list xs) ∧ i.toNat < xs.length
      ∧ get label before w = .ok (.list (xs.eraseIdx i.toNat)) := by
  obtain ⟨c, left, hc, hstep, hleft, -⟩ := remove_append_cases h label
  obtain ⟨xs, rfl, hi, rfl⟩ := removeStep_index_eq_ok_iff.1 hstep
  exact ⟨xs, hc, (List.getElem?_eq_some_iff.1 hi).1, hleft⟩

end Element

section InPlace

/-- What a removal leaves of `whole`, which stays as it is if the removal fails, and what was
removed. -/
def leaving {α : Type} (whole : α) :
    Except QueryError (Stored × α) → α × Except QueryError Stored
  | .ok (removed, left) => (left, .ok removed)
  | .error e => (whole, .error e)

/-- A removal that works in place: every value on the way is put back, whether the removal behind it
succeeds or fails. -/
def removeInPlace (path parent : Path) : List Step → Stored → Stored × Except QueryError Stored
  | [], v => (v, .error (.nameNotFound path))
  | [last], v => leaving v (removeStep path last v)
  | .key k :: next :: rest, .map fields =>
    match Fields.get? k fields with
    | some v =>
      let (child, result) := removeInPlace path parent (next :: rest) v
      (.map (Fields.insert k child fields), result)
    | none => (.map fields, .error (.nameNotFound path))
  | .key _ :: _ :: _, v => (v, .error (.notAMap parent))
  | .index i :: next :: rest, .list xs =>
    match xs[i.toNat]? with
    | some v =>
      let (child, result) := removeInPlace path parent (next :: rest) v
      (.list (xs.set i.toNat child), result)
    | none => (.list xs, .error (.nameNotFound path))
  | .index _ :: _ :: _, v => (v, .error (.unsupported (.indexing parent)))

/-- A removal in place is one that only gives something back if it succeeds. -/
lemma removeInPlace_eq (hv : v.Ordered) (path parent : Path) (steps : List Step) :
    removeInPlace path parent steps v = leaving v (remove path parent steps v) := by
  fun_induction remove path parent steps v with
  | case1 | case2 => rfl
  | case3 k next rest fields c hk ih =>
    rw [removeInPlace, hk]
    dsimp only
    rw [ih (hv.of_get? hk)]
    cases remove path parent (next :: rest) c with
    | ok result => rfl
    | error e =>
      show (Stored.map (Fields.insert k c fields), _) = (Stored.map fields, _)
      rw [(insert_eq_self_iff hv).2 hk]
      rfl
  | case4 k next rest fields hk =>
    rw [removeInPlace, hk]
    rfl
  | case6 i next rest xs c hi ih =>
    rw [removeInPlace, hi]
    dsimp only
    rw [ih (hv.getElem? hi)]
    cases remove path parent (next :: rest) c with
    | ok result => rfl
    | error e =>
      show (Stored.list (xs.set i.toNat c), _) = (Stored.list xs, _)
      rw [(set_list_eq_self_iff hi).2 rfl]
      rfl
  | case7 i next rest xs hi =>
    rw [removeInPlace, hi]
    rfl
  | case5 k next rest v hmap =>
    cases v with
    | map fields => exact absurd rfl (hmap fields)
    | _ => rfl
  | case8 i next rest v hlist =>
    cases v with
    | list xs => exact absurd rfl (hlist xs)
    | _ => rfl

end InPlace

end Stored

namespace Item

variable {item after : Item} {path : Path} {removed : Stored}

/-- An item is removed from as the map that it is. -/
lemma remove_eq_ofMap (hpath : path.IsRooted) (item : Item) :
    Stored.remove path ⟨path.steps.dropLast⟩ path.steps (.map item)
      = (item.remove path).map fun (removed, after) => (removed, .map after) := by
  obtain ⟨steps⟩ := path
  obtain ⟨name, rest, hsteps⟩ := hpath
  cases hsteps
  cases rest with
  | nil =>
    rw [Item.remove, Stored.remove, Stored.removeStep]
    dsimp only [Path.root]
    cases Fields.get? name item <;> rfl
  | cons next rest =>
    rw [Item.remove, Stored.remove]
    dsimp only [Path.root]
    cases Fields.get? name item with
    | none => rfl
    | some v =>
      dsimp only
      cases Stored.remove ⟨.key name :: next :: rest⟩ ⟨(.key name :: next :: rest).dropLast⟩
        (next :: rest) v <;> rfl

/-- A rooted path is removed from the item as a map. -/
lemma remove_eq_ok_iff (hpath : path.IsRooted) :
    item.remove path = .ok (removed, after)
      ↔ Stored.remove path ⟨path.steps.dropLast⟩ path.steps (.map item)
        = .ok (removed, .map after) := by
  rw [remove_eq_ofMap hpath, map_eq_ok_iff]
  constructor
  · exact fun h => ⟨_, h, rfl⟩
  · rintro ⟨_, h, heq⟩
    cases heq
    exact h

/-- What is removed is what the path leads to. -/
lemma exists_remove_iff (hpath : path.IsRooted) :
    (∃ after, item.remove path = .ok (removed, after)) ↔ item.get path = .ok removed := by
  obtain ⟨before, last, hsteps⟩ : ∃ before last, path.steps = before ++ [last] := by
    obtain ⟨name, rest, hsteps⟩ := hpath
    refine (List.eq_nil_or_concat' path.steps).resolve_left ?_
    rw [hsteps]
    exact nofun
  rw [get_eq_of_isRooted hpath, hsteps,
    ← Stored.exists_remove_iff path ⟨path.steps.dropLast⟩, ← hsteps, remove_eq_ofMap hpath]
  simp only [map_eq_ok_iff]
  constructor
  · rintro ⟨after, h⟩
    exact ⟨_, _, h, rfl⟩
  · rintro ⟨w, ⟨_, after⟩, h, heq⟩
    cases heq
    exact ⟨after, h⟩

/-- A removal from an item that works in place. -/
def removeInPlace (item : Item) (path : Path) : Item × Except QueryError Stored :=
  let parent : Path := ⟨path.steps.dropLast⟩
  match path.steps with
  | [] => (item, .error (.nameNotFound path))
  | [_] =>
    match Fields.get? path.root item with
    | some v => (Fields.erase path.root item, .ok v)
    | none => (item, .error (.nameNotFound path))
  | _ :: rest =>
    match Fields.get? path.root item with
    | some v =>
      let (child, result) := Stored.removeInPlace path parent rest v
      (Fields.insert path.root child item, result)
    | none => (item, .error (.nameNotFound path))

/-- A removal in place is one that only gives an item back if it succeeds. -/
lemma removeInPlace_eq (hitem : item.Ordered) (path : Path) :
    item.removeInPlace path = Stored.leaving item (item.remove path) := by
  obtain ⟨steps⟩ := path
  unfold removeInPlace Item.remove
  match steps with
  | [] => rfl
  | [step] =>
    dsimp only
    cases Fields.get? (Path.root ⟨[step]⟩) item <;> rfl
  | step :: next :: rest =>
    dsimp only
    cases hroot : Fields.get? (Path.root ⟨step :: next :: rest⟩) item with
    | none => rfl
    | some v =>
      dsimp only
      rw [Stored.removeInPlace_eq (Stored.Ordered.of_get? hitem hroot)]
      cases Stored.remove ⟨step :: next :: rest⟩ ⟨(step :: next :: rest).dropLast⟩
        (next :: rest) v with
      | ok result => rfl
      | error e =>
        show (Fields.insert (Path.root ⟨step :: next :: rest⟩) v item, _) = (item, _)
        rw [hitem.1.insert_eq_self hroot]
        rfl

/-- A name was removed from an item: its path leads nowhere any more, all others lead to what they
led to before, and writing back what was removed gives the item as it was. -/
structure NameRemoved (item : Item) (path : Path) (removed : Stored) (after : Item) : Prop where
  gone : after.get path = .error (.nameNotFound path)
  others : ∀ q : Path, q.IsRooted → ¬ q.steps <+: path.steps → ¬ path.steps <+: q.steps →
    after.get q = item.get q
  undone : after.set path removed = (item, .ok ())

/-- An element was removed from the list at `parent`: the list is shorter, elements in front of the
index stay where they are, those behind it are one further to the front, and where other paths lead
to is left. -/
structure ElementRemoved (item : Item) (parent : List Step) (xs : List Stored) (i : UInt64)
    (after : Item) : Prop where
  list : item.get ⟨parent⟩ = .ok (.list xs)
  left : after.get ⟨parent⟩ = .ok (.list (xs.eraseIdx i.toNat))
  shorter : (xs.eraseIdx i.toNat).length + 1 = xs.length
  front : ∀ j rest, j < i →
    after.get ⟨parent ++ .index j :: rest⟩ = item.get ⟨parent ++ .index j :: rest⟩
  behind : ∀ j rest, i ≤ j →
    after.get ⟨parent ++ .index j :: rest⟩
      = xs[j.toNat + 1]?.elim (.error (.nameNotFound ⟨parent ++ .index j :: rest⟩))
        (Stored.get ⟨parent ++ .index j :: rest⟩ rest)
  next : ∀ j j' rest, i ≤ j → j'.toNat = j.toNat + 1 →
    after.get ⟨parent ++ .index j :: rest⟩
      = (item.get ⟨parent ++ .index j' :: rest⟩).mapError
        (.withPath ⟨parent ++ .index j :: rest⟩)
  others : ∀ q : Path, q.IsRooted → ¬ q.steps <+: parent → ¬ parent <+: q.steps →
    after.get q = item.get q

/-- A removal by a path that ends in a name takes the field from its map, and nothing else. -/
lemma nameRemoved (hitem : item.Ordered) (hpath : path.IsRooted)
    (h : item.remove path = .ok (removed, after)) {before : List Step} {k : String}
    (hsteps : path.steps = before ++ [.key k]) : NameRemoved item path removed after := by
  rw [remove_eq_ok_iff hpath, hsteps] at h
  constructor
  · rw [get_eq_of_isRooted hpath, hsteps]
    exact Stored.get_of_remove_key h hitem path
  · intro q hq hprefix hextends
    rw [hsteps] at hprefix hextends
    rw [get_eq_of_isRooted hq, get_eq_of_isRooted hq]
    exact Stored.get_of_remove_key_of_diverges h hprefix hextends q
  · have hback := Stored.set_of_remove_key h hitem
    rw [← hsteps, set_eq_of_isRooted hpath] at hback
    obtain ⟨hback, hok⟩ := Prod.mk.inj hback
    exact Prod.ext (Stored.map.inj hback) hok

/-- A removal by a path that ends in an index takes the element from its list, and nothing else. -/
lemma elementRemoved (hpath : path.IsRooted) (h : item.remove path = .ok (removed, after))
    {before : List Step} {i : UInt64} (hsteps : path.steps = before ++ [.index i]) :
    ∃ xs, ElementRemoved item before xs i after := by
  have hroot : Path.IsRooted ⟨before ++ [.index i]⟩ := by
    rw [← hsteps]
    exact hpath
  have hparent : Path.IsRooted ⟨before⟩ := by
    refine hroot.of_append ?_
    rintro rfl
    obtain ⟨_, _, ⟨⟩⟩ := hroot
  rw [remove_eq_ok_iff hpath, hsteps] at h
  obtain ⟨xs, hlist, hi, hleft⟩ := Stored.get_of_remove_index h path
  have hfound (label : Path) (rest : List Step) :=
    Stored.get_append_of_get (Stored.get_eq_ok_of_get hlist label) rest
  have hkept (label : Path) (rest : List Step) :=
    Stored.get_append_of_get (Stored.get_eq_ok_of_get hleft label) rest
  have hbehind (j : UInt64) (rest : List Step) (hj : i ≤ j) :
      after.get ⟨before ++ .index j :: rest⟩
        = xs[j.toNat + 1]?.elim (.error (.nameNotFound ⟨before ++ .index j :: rest⟩))
          (Stored.get ⟨before ++ .index j :: rest⟩ rest) := by
    rw [get_eq_of_isRooted (hparent.append _), hkept, Stored.get_index_list,
      List.getElem?_eraseIdx_of_ge (UInt64.le_iff_toNat_le.1 hj)]
  refine ⟨xs, ?_, ?_, ?_, fun j rest hj => ?_, hbehind, fun j j' rest hj hnext => ?_,
    fun q hq hprefix hextends => ?_⟩
  · rw [get_eq_of_isRooted hparent]
    exact Stored.get_eq_ok_of_get hlist _
  · rw [get_eq_of_isRooted hparent]
    exact Stored.get_eq_ok_of_get hleft _
  · rw [List.length_eraseIdx_of_lt hi]
    omega
  · rw [get_eq_of_isRooted (hparent.append _), get_eq_of_isRooted (hparent.append _), hkept, hfound,
      Stored.get_index_list, Stored.get_index_list,
      List.getElem?_eraseIdx_of_lt (UInt64.lt_iff_toNat_lt.1 hj)]
  · rw [hbehind j rest hj, get_eq_of_isRooted (hparent.append _), hfound, Stored.get_index_list,
      hnext]
    cases xs[j.toNat + 1]? with
    | none => rfl
    | some c => exact Stored.get_withPath _ _ rest c
  · rw [get_eq_of_isRooted hq, get_eq_of_isRooted hq]
    exact Stored.get_of_remove_of_diverges h hextends hprefix q

/-- A removal gives what its path leads to, and fails if it leads nowhere; then the item is what it
was. What was removed is a field or an element, and all else in the item is left. -/
theorem remove_agrees (hitem : item.Ordered) (hpath : path.IsRooted) :
    (∀ removed, (∃ after, item.remove path = .ok (removed, after))
      ↔ item.get path = .ok removed)
    ∧ item.removeInPlace path = Stored.leaving item (item.remove path)
    ∧ ∀ removed after, item.remove path = .ok (removed, after) →
      (∀ before k, path.steps = before ++ [.key k] → NameRemoved item path removed after)
      ∧ ∀ before i, path.steps = before ++ [.index i] →
        ∃ xs, ElementRemoved item before xs i after := by
  refine ⟨fun removed => exists_remove_iff hpath, removeInPlace_eq hitem path, ?_⟩
  intro removed after h
  constructor
  · exact fun before k hsteps => nameRemoved hitem hpath h hsteps
  · exact fun before i hsteps => elementRemoved hpath h hsteps

/-- A field of a map in a list is removed, and then the map. -/
theorem remove_agrees_nested :
    let item : Item := [("a", .list [.map [("b", .bool true)], .string "x"])]
    let field : Path := ⟨[.key "a", .index 0, .key "b"]⟩
    let element : Path := ⟨[.key "a", .index 0]⟩
    item.Ordered ∧ field.IsRooted ∧ element.IsRooted
      ∧ NameRemoved item field (.bool true) [("a", .list [.map [], .string "x"])]
      ∧ ∃ xs, ElementRemoved item [.key "a"] xs 0 [("a", .list [.string "x"])] := by
  intro item field element
  have hitem : item.Ordered := by
    simp [item, Item.Ordered, Stored.Ordered, Stored.AllOrdered, Stored.FieldsOrdered,
      Fields.Ordered]
  have hfield : field.IsRooted := ⟨_, _, rfl⟩
  have helement : element.IsRooted := ⟨_, _, rfl⟩
  have hremoved : item.remove field
      = .ok (.bool true, [("a", .list [.map [], .string "x"])]) := by cbv
  have hshifted : item.remove element
      = .ok (.map [("b", .bool true)], [("a", .list [.string "x"])]) := by cbv
  refine ⟨hitem, hfield, helement, ?_, ?_⟩
  · exact ((remove_agrees hitem hfield).2.2 _ _ hremoved).1 [.key "a", .index 0] "b" rfl
  · exact ((remove_agrees hitem helement).2.2 _ _ hshifted).2 [.key "a"] 0 rfl

end Item

end TableQuery
