import Mathlib.Data.List.Perm.Basic
import TableQuery.Json.Basic

/-!
# Trees but for the order of their members

The members of an object are looked up by their names, so trees that differ only in where the
members of their objects stand are the same data.
-/

namespace TableQuery.Json

mutual

/-- Two trees are the same but for the order of the members of their objects. -/
def Alike : Json → Json → Prop
  | .array xs ending, .array ys ending' => AllAlike xs ys ∧ ending = ending'
  | .object ms ending, .object ns ending' => MembersAlike ms ns ∧ ending = ending'
  | .misnamed j, .misnamed j' => Alike j j'
  | j, j' => j = j'

/-- Two lists have alike trees at the same places. -/
def AllAlike : List Json → List Json → Prop
  | [], ys => ys = []
  | x :: xs, ys => ∃ y rest, ys = y :: rest ∧ Alike x y ∧ AllAlike xs rest

/-- Each member of one list has a member of the other one, with its name and an alike tree. -/
def MembersAlike : List (String × Json) → List (String × Json) → Prop
  | [], ns => ns = []
  | (k, j) :: ms, ns => ∃ j' rest, ns.Perm ((k, j') :: rest) ∧ Alike j j' ∧ MembersAlike ms rest

end

mutual

/-- No object in a tree has two members of one name. -/
def DistinctNames : Json → Prop
  | .array elements _ => AllDistinctNames elements
  | .object members _ => (members.map Prod.fst).Nodup ∧ MembersDistinctNames members
  | .misnamed j => j.DistinctNames
  | _ => True

/-- No object in the trees has two members of one name. -/
def AllDistinctNames : List Json → Prop
  | [] => True
  | j :: rest => j.DistinctNames ∧ AllDistinctNames rest

/-- No object in the trees of the members has two members of one name. -/
def MembersDistinctNames : List (String × Json) → Prop
  | [] => True
  | (_, j) :: rest => j.DistinctNames ∧ MembersDistinctNames rest

end

mutual

/-- A tree is like itself. -/
lemma Alike.refl : ∀ j : Json, j.Alike j
  | .array xs _ => ⟨AllAlike.refl xs, rfl⟩
  | .object ms _ => ⟨MembersAlike.refl ms, rfl⟩
  | .misnamed j => Alike.refl j
  | .null | .bool _ | .number _ | .string _ | .garbled | .cut => rfl

/-- The elements of a list are like themselves. -/
lemma AllAlike.refl : ∀ xs : List Json, AllAlike xs xs
  | [] => rfl
  | x :: xs => ⟨x, xs, rfl, Alike.refl x, AllAlike.refl xs⟩

/-- The members of an object are like themselves. -/
lemma MembersAlike.refl : ∀ ms : List (String × Json), MembersAlike ms ms
  | [] => rfl
  | (_, j) :: ms => ⟨j, ms, .rfl, Alike.refl j, MembersAlike.refl ms⟩

end

/-- Where the members of the other object stand does not matter. -/
lemma MembersAlike.perm {ms ns ns' : List (String × Json)} (h : MembersAlike ms ns)
    (hp : ns'.Perm ns) : MembersAlike ms ns' := by
  cases ms with
  | nil =>
    subst h
    exact hp.eq_nil
  | cons m ms =>
    obtain ⟨j', rest, hns, h⟩ := h
    exact ⟨j', rest, hp.trans hns, h⟩

/-- Nothing is like a string but the string. -/
lemma alike_string_iff {j : Json} {s : String} : j.Alike (.string s) ↔ j = .string s := by
  cases j <;> simp [Alike]

/-- Nothing is like a boolean but the boolean. -/
lemma alike_bool_iff {j : Json} {b : Bool} : j.Alike (.bool b) ↔ j = .bool b := by
  cases j <;> simp [Alike]

/-- Nothing is like a list but a list with elements that are like its own. -/
lemma alike_ofElements_iff {j : Json} {ys : List Json} :
    j.Alike (.ofElements ys) ↔ ∃ xs, j = .ofElements xs ∧ AllAlike xs ys := by
  cases j <;> simp [Alike, ofElements, and_comm]

/-- Nothing is like an object but an object with members that are like its own. -/
lemma alike_ofMembers_iff {j : Json} {ns : List (String × Json)} :
    j.Alike (.ofMembers ns) ↔ ∃ ms, j = .ofMembers ms ∧ MembersAlike ms ns := by
  cases j <;> simp [Alike, ofMembers, and_comm]

/-- Only the list itself is like a list of texts. -/
lemma allAlike_strings_iff {xs : List Json} {ss : List String} :
    AllAlike xs (ss.map .string) ↔ xs = ss.map .string := by
  induction xs generalizing ss with
  | nil => simp [AllAlike, eq_comm]
  | cons x xs ih =>
    cases ss with
    | nil => simp [AllAlike]
    | cons s ss => simp [AllAlike, alike_string_iff, ih]

/-- What is like an object of one member is one with a member of that name. -/
lemma membersAlike_singleton_iff {ms : List (String × Json)} {k : String} {c : Json} :
    MembersAlike ms [(k, c)] ↔ ∃ x, ms = [(k, x)] ∧ x.Alike c := by
  match ms with
  | [] => simp [MembersAlike]
  | [(l, x)] => simp [MembersAlike, @List.perm_comm _ [(k, c)], List.perm_singleton]
  | (l, x) :: m :: ms => simp [MembersAlike]

end TableQuery.Json
