import TableQuery.Json.Decode
import TableQuery.Proofs.Except

/-!
# When decoding succeeds

What the parts of a tree have to be for a value to be taken from them. Where an error is found has
no part in it.
-/

namespace TableQuery.Json

variable {α : Type}

/-- Marking the error of a first member leaves the values as they are. -/
lemma first_eq_ok_iff {r : Decoded α} {a : α} : first r = .ok a ↔ r = .ok a := by
  cases r <;> simp [first, Except.mapError]

/-- Marking the error of a later member leaves the values as they are. -/
lemma later_eq_ok_iff {r : Decoded α} {a : α} : later r = .ok a ↔ r = .ok a := by
  cases r <;> simp [later, Except.mapError]

/-- The end of a list is accepted exactly when nothing follows it. -/
lemma atEnd_eq_ok_iff {ending : Ending} {u : Unit} : atEnd ending = .ok u ↔ ending = .closed := by
  cases ending <;> simp [atEnd]

/-- Only a string decodes to a string, and it decodes to itself. -/
lemma asString_eq_ok_iff {j : Json} {s : String} : asString j = .ok s ↔ j = .string s := by
  cases j <;> simp [asString]

/-- Only a boolean decodes to a boolean, and it decodes to itself. -/
lemma asBool_eq_ok_iff {j : Json} {b : Bool} : asBool j = .ok b ↔ j = .bool b := by
  cases j <;> simp [asBool]

/-- A list is taken from an array that is closed, and from all of its elements. -/
lemma asList_eq_ok_iff {decode : Json → Decoded α} {j : Json} {xs : List α} :
    asList decode j = .ok xs ↔ ∃ js, j = .ofElements js ∧ decodeAll decode js = .ok xs := by
  cases j with
  | array elements ending =>
    rw [asList, bind_eq_ok_iff]
    constructor
    · rintro ⟨ys, hys, h⟩
      obtain ⟨u, hu, h⟩ := bind_eq_ok_iff.1 h
      cases h
      rw [atEnd_eq_ok_iff.1 hu]
      exact ⟨elements, rfl, hys⟩
    · rintro ⟨js, hj, h⟩
      cases hj
      exact ⟨xs, h, rfl⟩
  | _ => simp [asList, ofElements]

/-- A list decodes to strings exactly when it is the list of these strings. -/
lemma decodeAll_asString_eq_ok_iff {js : List Json} {ss : List String} :
    decodeAll asString js = .ok ss ↔ js = ss.map .string := by
  induction js generalizing ss with
  | nil => cases ss <;> simp [decodeAll]
  | cons j js ih =>
    rw [decodeAll, bind_pair_eq_ok_iff]
    simp only [first_eq_ok_iff, later_eq_ok_iff, asString_eq_ok_iff, ih]
    cases ss <;> simp [eq_comm]

end TableQuery.Json
