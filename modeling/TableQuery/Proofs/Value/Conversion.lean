import TableQuery.Proofs.Value.Stored

/-!
# Conversion of stored values

A stored value has a value in expressions exactly if no number that writes none and no null value
flagged false can be reached in it through lists and maps. The stored form of that value is the one
it came from, with its numbers written anew; and the stored form of a value is converted back to the
same value.
-/

namespace TableQuery

namespace Stored

/-- A stored value stands in another one, as itself or in its lists and maps. -/
inductive Reaches : Stored → Stored → Prop where
  | here {a} :
    Reaches a a
  | element {xs x u} :
    x ∈ xs →
    Reaches x u →
    Reaches (.list xs) u
  | field {fields name x u} :
    (name, x) ∈ fields →
    Reaches x u →
    Reaches (.map fields) u

/-- Why a stored value has no value in expressions, whatever it holds. -/
def flaw? : Stored → Option ConversionError
  | .number n => if (Decimal.ofText? n).isSome then none else some (.invalidNumber n)
  | .null flag => if flag then none else some .falseNull
  | _ => none

mutual

/-- The stored value with its numbers written as decimals write themselves. -/
def canonical : Stored → Stored
  | .number n => .number ((Decimal.ofText? n).elim n Decimal.text)
  | .list xs => .list (canonicalElements xs)
  | .map fields => .map (canonicalFields fields)
  | .string s => .string s
  | .binary bytes => .binary bytes
  | .strings xs => .strings xs
  | .numbers xs => .numbers xs
  | .binaries xs => .binaries xs
  | .bool b => .bool b
  | .null flag => .null flag

/-- Stored elements with their numbers written as decimals write themselves. -/
def canonicalElements : List Stored → List Stored
  | [] => []
  | a :: rest => a.canonical :: canonicalElements rest

/-- Stored fields with their numbers written as decimals write themselves. -/
def canonicalFields : List (String × Stored) → List (String × Stored)
  | [] => []
  | (name, a) :: rest => (name, a.canonical) :: canonicalFields rest

end

end Stored

namespace Value

mutual

/-- Every stored value that stands in a value is of a type that expressions have no kind for. -/
def IsProper : Value → Prop
  | .stored a => a.tag ∈ [.binary, .strings, .numbers, .binaries]
  | .list xs => AreProper xs
  | .map fields => FieldsAreProper fields
  | _ => True

/-- All elements are proper. -/
def AreProper : List Value → Prop
  | [] => True
  | v :: rest => v.IsProper ∧ AreProper rest

/-- The values of all fields are proper. -/
def FieldsAreProper : List (String × Value) → Prop
  | [] => True
  | (_, v) :: rest => v.IsProper ∧ FieldsAreProper rest

end

section Failure

variable {cause : ConversionError}

mutual

/-- A conversion that fails names a flaw of a value that is reached. -/
lemma exists_flaw_of_error :
    ∀ {a : Stored}, ofStored a = .error cause → ∃ u, a.Reaches u ∧ u.flaw? = some cause
  | .number n, h => by
    rw [ofStored] at h
    split at h
    next => cases h
    next hn =>
      cases h
      exact ⟨_, .here, by rw [Stored.flaw?, hn]; rfl⟩
  | .null flag, h => by
    cases flag with
    | true => cases h
    | false =>
      cases h
      exact ⟨_, .here, rfl⟩
  | .list xs, h => by
    obtain ⟨x, hx, u, hu, hflaw⟩ := exists_flaw_of_elements_error (map_eq_error_iff.1 h)
    exact ⟨u, .element hx hu, hflaw⟩
  | .map fields, h => by
    obtain ⟨name, x, hx, u, hu, hflaw⟩ := exists_flaw_of_fields_error (map_eq_error_iff.1 h)
    exact ⟨u, .field hx hu, hflaw⟩

/-- If elements cannot be read, then one of them reaches a flaw that is the cause. -/
lemma exists_flaw_of_elements_error : ∀ {xs : List Stored}, elementsOfStored xs = .error cause →
    ∃ x ∈ xs, ∃ u, x.Reaches u ∧ u.flaw? = some cause
  | x :: rest, h => by
    rcases bind_eq_error_iff.1 h with h | ⟨_, _, h⟩
    · exact ⟨x, List.mem_cons_self, exists_flaw_of_error h⟩
    · rcases bind_eq_error_iff.1 h with h | ⟨_, _, h⟩
      · obtain ⟨y, hy, hflaw⟩ := exists_flaw_of_elements_error h
        exact ⟨y, List.mem_cons_of_mem x hy, hflaw⟩
      · cases h

/-- If fields cannot be read, then the value of one reaches a flaw that is the cause. -/
lemma exists_flaw_of_fields_error :
    ∀ {fields : List (String × Stored)}, fieldsOfStored fields = .error cause →
      ∃ name x, (name, x) ∈ fields ∧ ∃ u, x.Reaches u ∧ u.flaw? = some cause
  | (name, x) :: rest, h => by
    rcases bind_eq_error_iff.1 h with h | ⟨_, _, h⟩
    · exact ⟨name, x, List.mem_cons_self, exists_flaw_of_error h⟩
    · rcases bind_eq_error_iff.1 h with h | ⟨_, _, h⟩
      · obtain ⟨k, y, hy, hflaw⟩ := exists_flaw_of_fields_error h
        exact ⟨k, y, List.mem_cons_of_mem _ hy, hflaw⟩
      · cases h

end

end Failure

/-- Every element of a list that is converted is converted. -/
lemma exists_of_mem_elements {xs : List Stored} {ws : List Value} (h : elementsOfStored xs = .ok ws)
    {x : Stored} (hx : x ∈ xs) : ∃ w, ofStored x = .ok w := by
  induction xs generalizing ws with
  | nil => cases hx
  | cons y rest ih =>
    obtain ⟨w, more, hy, hrest, -⟩ := bind_pair_eq_ok_iff.1 h
    cases hx with
    | head => exact ⟨w, hy⟩
    | tail _ hx => exact ih hrest hx

/-- The value of every field of a map that is converted is converted. -/
lemma exists_of_mem_fields {fields : List (String × Stored)} {ws : List (String × Value)}
    (h : fieldsOfStored fields = .ok ws) {name : String} {x : Stored} (hx : (name, x) ∈ fields) :
    ∃ w, ofStored x = .ok w := by
  induction fields generalizing ws with
  | nil => cases hx
  | cons field rest ih =>
    obtain ⟨k, y⟩ := field
    obtain ⟨w, more, hy, hrest, -⟩ := bind_pair_eq_ok_iff.1 h
    cases hx with
    | head => exact ⟨w, hy⟩
    | tail _ hx => exact ih hrest hx

/-- What is reached in a value that is converted has no flaw. -/
lemma flaw?_eq_none_of_ok {a u : Stored} (hu : a.Reaches u) {w : Value} (h : ofStored a = .ok w) :
    u.flaw? = none := by
  -- on the way to what is reached, on which every value is converted
  induction hu generalizing w with
  | @here a =>
    cases a with
    | number n =>
      rw [ofStored] at h
      split at h
      next d hd => rw [Stored.flaw?, hd]; rfl
      next => cases h
    | null flag =>
      cases flag with
      | true => rfl
      | false => cases h
    | _ => rfl
  | element hx _ ih =>
    obtain ⟨ws, hws, -⟩ := map_eq_ok_iff.1 h
    obtain ⟨w, hw⟩ := exists_of_mem_elements hws hx
    exact ih hw
  | field hx _ ih =>
    obtain ⟨ws, hws, -⟩ := map_eq_ok_iff.1 h
    obtain ⟨w, hw⟩ := exists_of_mem_fields hws hx
    exact ih hw

mutual

/-- The stored form of what a stored value is converted to is its canonical form. -/
lemma toStored_of_ofStored :
    ∀ {a : Stored} {w : Value}, ofStored a = .ok w → w.toStored = a.canonical
  | .number n, w, h => by
    rw [ofStored] at h
    split at h
    next d hd =>
      cases h
      rw [Stored.canonical, hd]
      rfl
    next => cases h
  | .null flag, _, h => by
    cases flag with
    | true =>
      cases h
      rfl
    | false => cases h
  | .list xs, _, h => by
    obtain ⟨ws, hws, rfl⟩ := map_eq_ok_iff.1 h
    exact congrArg Stored.list (elementsToStored_of_elementsOfStored hws)
  | .map fields, _, h => by
    obtain ⟨ws, hws, rfl⟩ := map_eq_ok_iff.1 h
    exact congrArg Stored.map (fieldsToStored_of_fieldsOfStored hws)
  | .string _, _, h | .bool _, _, h | .binary _, _, h | .strings _, _, h | .numbers _, _, h
  | .binaries _, _, h => by
    cases h
    rfl

/-- Elements that are read are stored again in canonical form. -/
lemma elementsToStored_of_elementsOfStored :
    ∀ {xs : List Stored} {ws : List Value}, elementsOfStored xs = .ok ws →
      elementsToStored ws = Stored.canonicalElements xs
  | [], _, h => by
    cases h
    rfl
  | x :: rest, _, h => by
    obtain ⟨w, more, hw, hmore, rfl⟩ := bind_pair_eq_ok_iff.1 h
    rw [elementsToStored, Stored.canonicalElements, toStored_of_ofStored hw,
      elementsToStored_of_elementsOfStored hmore]

/-- Fields that are read are stored again in canonical form. -/
lemma fieldsToStored_of_fieldsOfStored :
    ∀ {fields : List (String × Stored)} {ws : List (String × Value)},
      fieldsOfStored fields = .ok ws → fieldsToStored ws = Stored.canonicalFields fields
  | [], _, h => by
    cases h
    rfl
  | (name, x) :: rest, _, h => by
    obtain ⟨w, more, hw, hmore, rfl⟩ := bind_pair_eq_ok_iff.1 h
    rw [fieldsToStored, Stored.canonicalFields, toStored_of_ofStored hw,
      fieldsToStored_of_fieldsOfStored hmore]

end

/-- A value is stored under its own tag. -/
lemma tag_toStored (v : Value) : v.toStored.tag = v.tag := by
  cases v <;> rfl

/-- The canonical form has the tag of the value. -/
lemma tag_canonical (a : Stored) : a.canonical.tag = a.tag := by
  cases a <;> rfl

/-- A value is of the type of the stored value that it is read from. -/
lemma tag_of_ofStored {a : Stored} {w : Value} (h : ofStored a = .ok w) : w.tag = a.tag := by
  rw [← tag_toStored, toStored_of_ofStored h, tag_canonical]

/-- A number is converted back from its stored form. -/
lemma ofStored_toStored_of_decimal? {v : Value} {x : Decimal} (h : v.decimal? = some x) :
    ∃ w, ofStored v.toStored = .ok w ∧ v.same w = true ∧ w.toStored = v.toStored := by
  obtain ⟨y, hy, hvalue, htext⟩ := Decimal.ofText?_text x
  -- an integer comes back as a decimal, which is the same number and is written the same
  refine ⟨.decimal y, ?_, same_of_decimal? h rfl hvalue, ?_⟩
  · rw [toStored_of_decimal? h, ofStored, hy]
  · rw [toStored_of_decimal? h, toStored, htext]

mutual

/-- A value is converted back from its stored form. -/
lemma ofStored_toStored : ∀ v : Value, v.IsProper →
    ∃ w, ofStored v.toStored = .ok w ∧ v.same w = true ∧ w.toStored = v.toStored
  | .int _, _ | .decimal _, _ => ofStored_toStored_of_decimal? rfl
  | .string s, _ => ⟨.string s, rfl, beq_self_eq_true s, rfl⟩
  | .bool b, _ => ⟨.bool b, rfl, beq_self_eq_true b, rfl⟩
  | .null, _ => ⟨.null, rfl, rfl, rfl⟩
  | .list xs, h => by
    obtain ⟨ws, hws, hsame, hstored⟩ := elementsOfStored_elementsToStored xs h
    exact ⟨.list ws, map_eq_ok_iff.2 ⟨ws, hws, rfl⟩, hsame, congrArg Stored.list hstored⟩
  | .map fields, h => by
    obtain ⟨ws, hws, hsame, hstored⟩ := fieldsOfStored_fieldsToStored fields h
    exact ⟨.map ws, map_eq_ok_iff.2 ⟨ws, hws, rfl⟩, hsame, congrArg Stored.map hstored⟩
  | .stored a, h => by
    -- values of the types that expressions have no kind for are not looked into
    refine ⟨.stored a, ?_, beq_self_eq_true a, rfl⟩
    cases a with
    | binary | strings | numbers | binaries => rfl
    | _ => simp [IsProper, Stored.tag] at h

/-- Elements that are stored are read again as the same ones. -/
lemma elementsOfStored_elementsToStored : ∀ xs : List Value, AreProper xs →
    ∃ ws, elementsOfStored (elementsToStored xs) = .ok ws ∧ sameAll xs ws = true
      ∧ elementsToStored ws = elementsToStored xs
  | [], _ => ⟨[], rfl, rfl, rfl⟩
  | v :: rest, h => by
    obtain ⟨w, hw, hsame, hstored⟩ := ofStored_toStored v h.1
    obtain ⟨ws, hws, hsames, hrest⟩ := elementsOfStored_elementsToStored rest h.2
    refine ⟨w :: ws, bind_pair_eq_ok_iff.2 ⟨w, ws, hw, hws, rfl⟩, ?_, ?_⟩
    · rw [sameAll, hsame, hsames]
      rfl
    · rw [elementsToStored, elementsToStored, hstored, hrest]

/-- Fields that are stored are read again as the same ones. -/
lemma fieldsOfStored_fieldsToStored : ∀ fields : List (String × Value), FieldsAreProper fields →
    ∃ ws, fieldsOfStored (fieldsToStored fields) = .ok ws ∧ sameFields fields ws = true
      ∧ fieldsToStored ws = fieldsToStored fields
  | [], _ => ⟨[], rfl, rfl, rfl⟩
  | (name, v) :: rest, h => by
    obtain ⟨w, hw, hsame, hstored⟩ := ofStored_toStored v h.1
    obtain ⟨ws, hws, hsames, hrest⟩ := fieldsOfStored_fieldsToStored rest h.2
    refine ⟨(name, w) :: ws, bind_pair_eq_ok_iff.2 ⟨w, ws, hw, hws, rfl⟩, ?_, ?_⟩
    · rw [sameFields, beq_self_eq_true, hsame, hsames]
      rfl
    · rw [fieldsToStored, fieldsToStored, hstored, hrest]

end

/-- A stored value is converted exactly if nothing that is reached in it has a flaw, and the error
names one that has. Converted and stored again it is written canonically, and the canonical text of
a number is read as that number and is its own canonical text. A value in which nothing is stored
that expressions have a kind for is the same after it is stored and converted, and is then stored
the same. -/
theorem ofStored_lossless :
    (∀ a : Stored,
      ((∃ cause, ofStored a = .error cause) ↔ ∃ u, a.Reaches u ∧ u.flaw?.isSome = true)
        ∧ (∀ cause, ofStored a = .error cause → ∃ u, a.Reaches u ∧ u.flaw? = some cause)
        ∧ ∀ w, ofStored a = .ok w → w.toStored = a.canonical ∧ w.tag = a.tag)
      ∧ (∀ d : Decimal, ∃ r, Decimal.ofText? d.text = some r ∧ d.same r = true ∧ r.text = d.text)
      ∧ ∀ v : Value, v.IsProper →
        ∃ w, ofStored v.toStored = .ok w ∧ v.same w = true ∧ w.tag = v.tag
          ∧ w.toStored = v.toStored := by
  refine ⟨fun a => ⟨⟨?_, ?_⟩, fun _ => exists_flaw_of_error, fun w hw => ⟨?_, ?_⟩⟩, fun d => ?_,
    fun v hv => ?_⟩
  · rintro ⟨cause, h⟩
    obtain ⟨u, hu, hflaw⟩ := exists_flaw_of_error h
    exact ⟨u, hu, by rw [hflaw]; rfl⟩
  · rintro ⟨u, hu, hflaw⟩
    cases h : ofStored a with
    | error cause => exact ⟨cause, rfl⟩
    | ok w =>
      rw [flaw?_eq_none_of_ok hu h] at hflaw
      cases hflaw
  · exact toStored_of_ofStored hw
  · rw [← tag_toStored, toStored_of_ofStored hw, tag_canonical]
  · obtain ⟨r, hr, hvalue, htext⟩ := Decimal.ofText?_text d
    exact ⟨r, hr, Decimal.same_iff.2 hvalue.symm, htext⟩
  · obtain ⟨w, hw, hsame, hstored⟩ := ofStored_toStored v hv
    exact ⟨w, hw, hsame, by rw [← tag_toStored, hstored, tag_toStored], hstored⟩

/-- A null value flagged false deep in a map, and an integer beside a set of malformed numbers,
which is not looked into. -/
theorem ofStored_lossless_nested :
    let a : Stored := .map [("a", .list [.number "1.50"]), ("b", .null false)]
    let v : Value := .list [.int 7, .stored (.numbers ["x"])]
    (∃ cause, ofStored a = .error cause)
      ∧ v.IsProper ∧ ∃ w, ofStored v.toStored = .ok w ∧ v.same w = true ∧ w.tag = v.tag
        ∧ w.toStored = v.toStored := by
  intro a v
  have hv : v.IsProper := ⟨trivial, by simp [IsProper, Stored.tag], trivial⟩
  have hflaw : ∃ u, a.Reaches u ∧ u.flaw?.isSome = true :=
    ⟨.null false, .field (List.mem_cons_of_mem _ List.mem_cons_self) .here, rfl⟩
  exact ⟨(ofStored_lossless.1 a).1.2 hflaw, hv, ofStored_lossless.2.2 v hv⟩

end Value

end TableQuery
