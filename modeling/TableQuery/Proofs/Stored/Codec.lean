import TableQuery.Proofs.Fields
import TableQuery.Proofs.Json.Alike
import TableQuery.Proofs.Json.Decode
import TableQuery.Proofs.Text.Base64
import TableQuery.Stored.Json

/-!
# Stored values and their JSON

A stored value is taken from a tree exactly if the tree is the JSON of the value, but for the order
of members. So every value is read back as it was, and no other tree is read.
-/

namespace TableQuery

/-- A tag is read from its text. -/
lemma TypeTag.ofText?_text (t : TypeTag) : ofText? t.text = some t := by
  cases t <;> rfl

/-- A tag is read from no other text than its own. -/
lemma TypeTag.text_of_ofText? {text : String} {t : TypeTag} (h : ofText? text = some t) :
    text = t.text := by
  have := List.find?_some h
  exact (beq_iff_eq.1 this).symm

namespace Stored

open Json (Alike AllAlike MembersAlike DistinctNames AllDistinctNames MembersDistinctNames)

mutual

/-- The fields of every map in a value are in the order of their names, and so no two have one
name. -/
def Ordered : Stored → Prop
  | .list xs => AllOrdered xs
  | .map fields => Fields.Ordered fields ∧ FieldsOrdered fields
  | _ => True

/-- The fields of every map in the elements are in order. -/
def AllOrdered : List Stored → Prop
  | [] => True
  | v :: rest => v.Ordered ∧ AllOrdered rest

/-- The fields of every map in the values of the fields are in order. -/
def FieldsOrdered : List (String × Stored) → Prop
  | [] => True
  | (_, v) :: rest => v.Ordered ∧ FieldsOrdered rest

end

/-- The fields are in order inside if each of their values is. -/
lemma fieldsOrdered_iff {fields : List (String × Stored)} :
    FieldsOrdered fields ↔ ∀ field ∈ fields, field.2.Ordered := by
  induction fields with
  | nil => simp [FieldsOrdered]
  | cons field rest ih => simp [FieldsOrdered, ih]

/-- The elements are in order inside if each of them is. -/
lemma allOrdered_iff {xs : List Stored} : AllOrdered xs ↔ ∀ v ∈ xs, v.Ordered := by
  induction xs with
  | nil => simp [AllOrdered]
  | cons v rest ih => simp [AllOrdered, ih]

/-- Whether the values of fields are in order does not depend on the order of the fields. -/
lemma FieldsOrdered.perm {fields fields' : List (String × Stored)} (h : FieldsOrdered fields)
    (hp : fields'.Perm fields) : FieldsOrdered fields' :=
  fieldsOrdered_iff.2 fun field hfield => fieldsOrdered_iff.1 h field (hp.subset hfield)

/-- The members for fields are made one by one. -/
lemma fieldsJson_eq_map (fields : List (String × Stored)) :
    fieldsJson fields = fields.map fun (k, v) => (k, v.toJson) := by
  induction fields with
  | nil => rfl
  | cons field rest ih =>
    obtain ⟨k, v⟩ := field
    simp only [fieldsJson, ih, List.map_cons, toJson]

/-- Binary data is taken from its Base64 text only. -/
lemma binaryOfText_eq_ok_iff {text : String} {bytes : List UInt8} :
    binaryOfText text = .ok bytes ↔ text = Text.Base64.encode bytes := by
  rw [← Text.Base64.decode?_eq_some_iff, binaryOfText]
  cases Text.Base64.decode? text <;> simp

/-- A list of binary data is taken from the list of its Base64 texts only. -/
lemma mapM_binaryOfText_eq_ok_iff {ss : List String} {bs : List (List UInt8)} :
    ss.mapM binaryOfText = .ok bs ↔ ss = bs.map Text.Base64.encode := by
  induction ss generalizing bs with
  | nil => cases bs <;> simp [pure, Except.pure]
  | cons s ss ih =>
    rw [List.mapM_cons, bind_pair_eq_ok_iff]
    simp only [binaryOfText_eq_ok_iff, ih]
    cases bs <;> simp [eq_comm]

/-- Values without parts of their own are taken from the JSON of their contents only. -/
lemma ofContents_eq_ok_iff_of_flat {t : TypeTag} (hl : t ≠ .list) (hm : t ≠ .map) {j : Json}
    {v : Stored} : ofContents t.text j = .ok v ↔ v.tag = t ∧ j = contents v := by
  unfold ofContents
  rw [TypeTag.ofText?_text]
  cases t with
  | list => exact absurd rfl hl
  | map => exact absurd rfl hm
  | _ =>
    simp only [map_eq_ok_iff, bind_eq_ok_iff, Json.asString_eq_ok_iff, Json.asBool_eq_ok_iff,
      Json.asList_eq_ok_iff, Json.decodeAll_asString_eq_ok_iff, binaryOfText_eq_ok_iff,
      mapM_binaryOfText_eq_ok_iff]
    cases v <;> simp [tag, contents, pure, Except.pure, Function.comp_def, eq_comm]

/-- A tree is like a list of strings only if it is the list. -/
lemma alike_strings_iff {ss : List String} {j : Json} :
    j.Alike (.ofElements (ss.map .string)) ↔ j = .ofElements (ss.map .string) := by
  simp only [Json.alike_ofElements_iff, Json.allAlike_strings_iff, exists_eq_right]

/-- What is like the JSON of the contents of a value without parts of its own is that JSON. -/
lemma alike_contents_iff_of_flat {v : Stored} (hl : v.tag ≠ .list) (hm : v.tag ≠ .map) {j : Json} :
    j.Alike (contents v) ↔ j = contents v := by
  cases v with
  | list xs => exact absurd rfl hl
  | map fields => exact absurd rfl hm
  | string s => exact Json.alike_string_iff
  | number n => exact Json.alike_string_iff
  | binary bytes => exact Json.alike_string_iff
  | bool b => exact Json.alike_bool_iff
  | null flag => exact Json.alike_bool_iff
  | strings xs => exact alike_strings_iff
  | numbers xs => exact alike_strings_iff
  | binaries xs =>
    have texts : contents (.binaries xs)
        = .ofElements ((xs.map Text.Base64.encode).map .string) := by
      rw [contents, List.map_map]
      rfl
    rw [texts]
    exact alike_strings_iff

/-- What is like the JSON of a value is an object with the one member that the value has. -/
lemma alike_toJson_iff {v : Stored} {j : Json} :
    j.Alike v.toJson ↔ ∃ c, j = .ofMembers [(v.tag.text, c)] ∧ c.Alike (contents v) := by
  rw [toJson, Json.alike_ofMembers_iff]
  simp only [Json.membersAlike_singleton_iff]
  constructor
  · rintro ⟨ms, hj, c, rfl, hc⟩
    exact ⟨c, hj, hc⟩
  · rintro ⟨c, hj, hc⟩
    exact ⟨_, hj, c, rfl, hc⟩

/-- A value is taken from an object with one member that names its type. -/
lemma ofJson_eq_ok_iff_ofContents {j : Json} {v : Stored} :
    ofJson j = .ok v ↔ ∃ t c, j = .ofMembers [(t, c)] ∧ ofContents t c = .ok v := by
  match j with
  | .object ((t, c) :: rest) ending =>
    rw [ofJson, bind_eq_ok_iff]
    simp only [Json.first_eq_ok_iff]
    cases rest with
    | nil =>
      simp only [List.isEmpty_nil, if_true, bind_eq_ok_iff, Json.atEnd_eq_ok_iff]
      constructor
      · rintro ⟨w, hw, _, rfl, h⟩
        cases h
        exact ⟨t, c, rfl, hw⟩
      · rintro ⟨t, c, hj, h⟩
        cases hj
        exact ⟨v, h, (), rfl, rfl⟩
    | cons m ms => simp [Json.ofMembers]
  | .object [] ending =>
    cases ending <;> simp [ofJson, Json.ofMembers, Json.atEnd, bind, Except.bind]
  | .misnamed _ => simp [ofJson, Json.ofMembers]
  | .null | .bool _ | .number _ | .string _ | .garbled | .cut | .array .. =>
    simp [ofJson, Json.ofMembers]

/-- The elements of a list are taken from a closed array. -/
lemma ofContents_list_iff {j : Json} {v : Stored} :
    ofContents TypeTag.list.text j = .ok v ↔
      ∃ js xs, j = .array js .closed ∧ v = .list xs ∧ ofElements js = .ok xs := by
  unfold ofContents
  rw [TypeTag.ofText?_text]
  cases j with
  | array js ending =>
    simp only [bind_eq_ok_iff, Json.atEnd_eq_ok_iff]
    constructor
    · rintro ⟨xs, hxs, _, rfl, h⟩
      cases h
      exact ⟨js, xs, rfl, rfl, hxs⟩
    · rintro ⟨js, xs, hj, rfl, hxs⟩
      cases hj
      exact ⟨xs, hxs, (), rfl, rfl⟩
  | _ => simp

/-- The fields of a map are taken from a closed object. -/
lemma ofContents_map_iff {j : Json} {v : Stored} :
    ofContents TypeTag.map.text j = .ok v ↔
      ∃ ms fields, j = .object ms .closed ∧ v = .map fields ∧ ofMembers [] ms = .ok fields := by
  unfold ofContents
  rw [TypeTag.ofText?_text]
  cases j with
  | object ms ending =>
    simp only [bind_eq_ok_iff, Json.atEnd_eq_ok_iff]
    constructor
    · rintro ⟨fields, hfields, _, rfl, h⟩
      cases h
      exact ⟨ms, fields, rfl, rfl, hfields⟩
    · rintro ⟨ms, fields, hj, rfl, hfields⟩
      cases hj
      exact ⟨fields, hfields, (), rfl, rfl⟩
  | _ => simp

/-- Elements are taken one after the other. -/
lemma ofElements_cons_iff {j : Json} {js : List Json} {vs : List Stored} :
    ofElements (j :: js) = .ok vs ↔
      ∃ v rest, ofJson j = .ok v ∧ ofElements js = .ok rest ∧ v :: rest = vs := by
  rw [ofElements, bind_pair_eq_ok_iff]
  simp only [Json.first_eq_ok_iff, Json.later_eq_ok_iff]

/-- Members are taken one after the other, and a later one takes the place of an earlier one of its
name. -/
lemma ofMembers_cons_iff {fields fields' : Fields Stored} {k : String} {j : Json}
    {ms : List (String × Json)} :
    ofMembers fields ((k, j) :: ms) = .ok fields' ↔
      ∃ v, ofJson j = .ok v ∧ ofMembers (fields.insert k v) ms = .ok fields' := by
  rw [ofMembers, bind_eq_ok_iff]
  simp only [Json.first_eq_ok_iff, Json.later_eq_ok_iff]

mutual

/-- A value that is taken from a tree has ordered maps and the tree as its JSON. -/
lemma alike_of_ofJson : ∀ {j : Json} {v : Stored}, j.DistinctNames → ofJson j = .ok v →
    v.Ordered ∧ j.Alike v.toJson
  | .object ((t, c) :: _) _, v, hj, h => by
    obtain ⟨t, c, hobject, hread⟩ := ofJson_eq_ok_iff_ofContents.1 h
    cases hobject
    obtain ⟨rfl, hv, hc⟩ := alike_of_ofContents hj.2.1 hread
    exact ⟨hv, alike_toJson_iff.2 ⟨c, rfl, hc⟩⟩
  | .object [] _, v, _, h | .misnamed _, v, _, h | .null, v, _, h | .bool _, v, _, h
  | .number _, v, _, h | .string _, v, _, h | .garbled, v, _, h | .cut, v, _, h
  | .array .., v, _, h => by
    obtain ⟨t, c, hobject, -⟩ := ofJson_eq_ok_iff_ofContents.1 h
    cases hobject

/-- Contents that are taken for a type name are those of a value of that type. -/
lemma alike_of_ofContents : ∀ {name : String} {c : Json} {v : Stored}, c.DistinctNames →
    ofContents name c = .ok v → name = v.tag.text ∧ v.Ordered ∧ c.Alike (contents v)
  | name, c, v, hc, h => by
    cases ht : TypeTag.ofText? name with
    | none =>
      rw [ofContents.eq_def, ht] at h
      nomatch h
    | some t =>
    obtain rfl := TypeTag.text_of_ofText? ht
    -- only lists and maps have values in them whose trees may be alike without being the same
    by_cases hl : t = .list
    · subst hl
      obtain ⟨js, xs, rfl, rfl, hread⟩ := ofContents_list_iff.1 h
      obtain ⟨hxs, halike⟩ := alike_of_ofElements hc hread
      exact ⟨rfl, hxs, Json.alike_ofElements_iff.2 ⟨js, rfl, halike⟩⟩
    by_cases hm : t = .map
    · subst hm
      obtain ⟨ms, fields, rfl, rfl, hread⟩ := ofContents_map_iff.1 h
      obtain ⟨entries, hnames, hentries, halike, rfl⟩ := alike_of_ofMembers hc.2 hread
      have hperm := Fields.ofList_perm (hnames ▸ hc.1)
      refine ⟨rfl, ⟨Fields.ordered_ofList entries, hentries.perm hperm⟩, ?_⟩
      refine Json.alike_ofMembers_iff.2 ⟨ms, rfl, halike.perm ?_⟩
      rw [fieldsJson_eq_map, fieldsJson_eq_map]
      exact hperm.map _
    · obtain ⟨rfl, rfl⟩ := (ofContents_eq_ok_iff_of_flat hl hm).1 h
      refine ⟨rfl, ?_, Alike.refl _⟩
      cases v with
      | list xs => exact absurd rfl hl
      | map fields => exact absurd rfl hm
      | _ => trivial

/-- Elements that are taken from trees have ordered maps and the trees as their JSON. -/
lemma alike_of_ofElements : ∀ {js : List Json} {xs : List Stored}, AllDistinctNames js →
    ofElements js = .ok xs → AllOrdered xs ∧ AllAlike js (elementsJson xs)
  | [], xs, _, h => by
    cases h
    exact ⟨trivial, rfl⟩
  | j :: js, xs, hjs, h => by
    obtain ⟨v, rest, hv, hrest, rfl⟩ := ofElements_cons_iff.1 h
    obtain ⟨hordered, halike⟩ := alike_of_ofJson hjs.1 hv
    obtain ⟨hordereds, halikes⟩ := alike_of_ofElements hjs.2 hrest
    rw [toJson] at halike
    exact ⟨⟨hordered, hordereds⟩, _, _, rfl, halike, halikes⟩

/-- Members write entries with their names, one after another. -/
lemma alike_of_ofMembers : ∀ {ms : List (String × Json)} {fields fields' : Fields Stored},
    MembersDistinctNames ms → ofMembers fields ms = .ok fields' →
      ∃ entries, ms.map Prod.fst = entries.map Prod.fst ∧ FieldsOrdered entries ∧
        MembersAlike ms (fieldsJson entries) ∧
        fields' = entries.foldl (fun fields (k, v) => fields.insert k v) fields
  | [], fields, fields', _, h => by
    cases h
    exact ⟨[], rfl, trivial, rfl, rfl⟩
  | (k, j) :: ms, fields, fields', hms, h => by
    obtain ⟨v, hv, h⟩ := ofMembers_cons_iff.1 h
    obtain ⟨hordered, halike⟩ := alike_of_ofJson hms.1 hv
    obtain ⟨entries, hnames, hordereds, halikes, rfl⟩ := alike_of_ofMembers hms.2 h
    rw [toJson] at halike
    refine ⟨(k, v) :: entries, ?_, ⟨hordered, hordereds⟩, ⟨_, _, .rfl, halike, halikes⟩, rfl⟩
    rw [List.map_cons, List.map_cons, hnames]

end

/-- Members that are alike to those of some fields write these fields, in the order in which the
members stand. -/
lemma ofMembers_of_alike {ms : List (String × Json)} {fields : Fields Stored} (acc : Fields Stored)
    (hread : ∀ field ∈ fields, ∀ j : Json, j.Alike field.2.toJson → ofJson j = .ok field.2)
    (h : MembersAlike ms (fieldsJson fields)) :
    ∃ entries : List (String × Stored), entries.Perm fields ∧
      ofMembers acc ms = .ok (entries.foldl (fun fields (k, v) => fields.insert k v) acc) := by
  induction ms generalizing fields acc with
  | nil =>
    cases fields with
    | nil => exact ⟨[], .rfl, rfl⟩
    | cons field rest => nomatch h
  | cons m ms ih =>
    obtain ⟨k, j⟩ := m
    obtain ⟨j', rest, hperm, hj, hms⟩ := h
    rw [fieldsJson_eq_map] at hperm
    obtain ⟨⟨l, v⟩, hfield, heq⟩ := List.mem_map.1 (hperm.mem_iff.2 List.mem_cons_self)
    cases heq
    -- the field that the first member is like stands among the fields, and the others are left
    obtain ⟨front, back, rfl⟩ := List.append_of_mem hfield
    have hfront : (front ++ (k, v) :: back).Perm ((k, v) :: (front ++ back)) := List.perm_middle
    have hrest : (fieldsJson (front ++ back)).Perm rest := by
      rw [fieldsJson_eq_map]
      exact ((hfront.map _).symm.trans hperm).cons_inv
    obtain ⟨entries, hentries, hwrite⟩ := ih (acc.insert k v)
      (fun field h => hread field (hfront.mem_iff.2 (List.mem_cons_of_mem _ h))) (hms.perm hrest)
    refine ⟨(k, v) :: entries, (hentries.cons _).trans hfront.symm, ?_⟩
    exact ofMembers_cons_iff.2 ⟨v, hread _ hfield j hj, hwrite⟩

mutual

/-- A value with ordered maps is taken from every tree that is like its JSON. -/
lemma ofJson_of_alike : ∀ {v : Stored} {j : Json}, v.Ordered → j.Alike v.toJson → ofJson j = .ok v
  | v, j, hv, h => by
    obtain ⟨c, rfl, hc⟩ := alike_toJson_iff.1 h
    exact ofJson_eq_ok_iff_ofContents.2 ⟨_, c, rfl, ofContents_of_alike hv hc⟩

/-- A value with ordered maps is taken from every tree that is like its contents. -/
lemma ofContents_of_alike : ∀ {v : Stored} {c : Json}, v.Ordered → c.Alike (contents v) →
    ofContents v.tag.text c = .ok v
  | .list xs, c, hv, h => by
    obtain ⟨js, rfl, hjs⟩ := Json.alike_ofElements_iff.1 h
    exact ofContents_list_iff.2 ⟨js, xs, rfl, rfl, ofElements_of_alike hv hjs⟩
  | .map fields, c, hv, h => by
    obtain ⟨ms, rfl, hms⟩ := Json.alike_ofMembers_iff.1 h
    -- the entries come in the order of the members, and are put into that of their names
    obtain ⟨entries, hperm, hread⟩ :=
      ofMembers_of_alike [] (ofJson_of_alike_of_mem hv.2) hms
    have hfields : Fields.ofList entries = fields := hv.1.ofList_eq hperm
    rw [← Fields.ofList, hfields] at hread
    exact ofContents_map_iff.2 ⟨ms, fields, rfl, rfl, hread⟩
  | .string _, c, _, h | .number _, c, _, h | .binary _, c, _, h | .strings _, c, _, h
  | .numbers _, c, _, h | .binaries _, c, _, h | .bool _, c, _, h | .null _, c, _, h => by
    obtain rfl := (alike_contents_iff_of_flat (by simp [tag]) (by simp [tag])).1 h
    exact (ofContents_eq_ok_iff_of_flat (by simp [tag]) (by simp [tag])).2 ⟨rfl, rfl⟩

/-- Elements with ordered maps are taken from all trees that are like their JSON. -/
lemma ofElements_of_alike : ∀ {xs : List Stored} {js : List Json}, AllOrdered xs →
    AllAlike js (elementsJson xs) → ofElements js = .ok xs
  | [], js, _, h => by
    cases js with
    | nil => rfl
    | cons j js =>
      obtain ⟨_, _, h, -⟩ := h
      nomatch h
  | v :: rest, js, hv, h => by
    cases js with
    | nil => nomatch h
    | cons j js =>
      obtain ⟨_, _, heq, hj, hjs⟩ := h
      cases heq
      exact ofElements_cons_iff.2
        ⟨v, rest, ofJson_of_alike hv.1 (by rwa [toJson]), ofElements_of_alike hv.2 hjs, rfl⟩

/-- The value of a field with ordered maps is taken from every tree that is like its JSON. -/
lemma ofJson_of_alike_of_mem : ∀ {fields : List (String × Stored)}, FieldsOrdered fields →
    ∀ field ∈ fields, ∀ j : Json, j.Alike field.2.toJson → ofJson j = .ok field.2
  | (_, v) :: rest, hfields, field, hfield, j, h => by
    rcases List.mem_cons.1 hfield with rfl | hfield
    · exact ofJson_of_alike hfields.1 h
    · exact ofJson_of_alike_of_mem hfields.2 field hfield j h

end

/-- A stored value is read back from its JSON as it was, at any depth; and of the trees in which no
object has a name twice, exactly those are taken for a value that are its JSON but for the order of
members. -/
theorem ofJson_eq_ok_iff :
    (∀ v : Stored, v.Ordered → ofJson v.toJson = .ok v) ∧
      ∀ j : Json, j.DistinctNames → ∀ v : Stored,
        ofJson j = .ok v ↔ v.Ordered ∧ j.Alike v.toJson := by
  refine ⟨fun v hv => ofJson_of_alike hv (Alike.refl _), fun j hj v => ?_⟩
  exact ⟨alike_of_ofJson hj, fun ⟨hv, h⟩ => ofJson_of_alike hv h⟩

/-- Bytes in a list in a map, with the members of the map the other way round. -/
theorem ofJson_eq_ok_iff_exchanged :
    let v : Stored := .map [("a", .list [.binary [1, 255]]), ("b", .null true)]
    let j : Json := .ofMembers [("M", .ofMembers [("b", .ofMembers [("NULL", .bool true)]),
      ("a", .ofMembers [("L", .ofElements [.ofMembers [("B", .string "Af8=")]])])])]
    v.Ordered ∧ j.DistinctNames ∧ ofJson v.toJson = .ok v ∧ ofJson j = .ok v := by
  intro v j
  have names : Fields.Ordered [("a", Stored.list [.binary [1, 255]]), ("b", .null true)] := by
    unfold Fields.Ordered
    decide
  have hv : v.Ordered := ⟨names, ⟨trivial, trivial⟩, trivial, trivial⟩
  have hj : j.DistinctNames := by
    simp [j, Json.ofMembers, Json.ofElements, DistinctNames, AllDistinctNames,
      MembersDistinctNames]
  have h : j.Alike v.toJson := by
    refine alike_toJson_iff.2 ⟨_, rfl, Json.alike_ofMembers_iff.2 ⟨_, rfl, ?_⟩⟩
    exact (MembersAlike.refl _).perm (.swap ..)
  exact ⟨hv, hj, ofJson_eq_ok_iff.1 v hv, (ofJson_eq_ok_iff.2 j hj v).2 ⟨hv, h⟩⟩

end Stored

end TableQuery
