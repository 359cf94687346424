import TableQuery.Builtin.Apply
import TableQuery.Proofs.Except

/-!
# Marked rows

The function for marked rows gives the values of an attribute in the rows that are marked and have
it, in the order of the rows. If one of these values cannot be read, then it fails with the number
of the first such row.
-/

namespace TableQuery.Builtin

/-- What a row has under a name, if it is marked. -/
def markedValue? (name : String) (row : Item × Bool) : Option Stored :=
  if row.2 then Fields.get? name row.1 else none

/-- What the marked rows have under a name is read as `values`. -/
def MarkedAre (name : String) (rows : List (Item × Bool)) (values : List Value) : Prop :=
  List.Forall₂ (fun v w => Value.ofStored v = .ok w) (rows.filterMap (markedValue? name)) values

/-- The row at the place `i` is the first marked one of which the value under a name cannot be
read. -/
structure MarkedFails (name : String) (rows : List (Item × Bool)) (i : Nat)
    (cause : ConversionError) : Prop where
  fails : ∃ v, rows[i]?.bind (markedValue? name) = some v ∧ Value.ofStored v = .error cause
  first : ∀ j < i, ∀ v, rows[j]?.bind (markedValue? name) = some v → ∃ w, Value.ofStored v = .ok w

variable {name : String} {index i : Nat} {row : Item × Bool} {rest rows : List (Item × Bool)}
variable {v : Stored} {w : Value} {values : List Value} {cause : ConversionError}

/-- A row without a mark or without the attribute is only counted. -/
lemma markedFrom_cons_of_none (h : markedValue? name row = none) :
    markedFrom name index (row :: rest) = markedFrom name (index + 1) rest := by
  unfold markedValue? at h
  rw [markedFrom, h]

/-- A value that can be read comes before those of the rows behind. -/
lemma markedFrom_cons_of_ok (h : markedValue? name row = some v) (hv : Value.ofStored v = .ok w) :
    markedFrom name index (row :: rest) = (markedFrom name (index + 1) rest).map (w :: ·) := by
  unfold markedValue? at h
  rw [markedFrom, h]
  dsimp only
  rw [hv]
  cases markedFrom name (index + 1) rest <;> rfl

/-- A value that cannot be read ends the search with the number of its row. -/
lemma markedFrom_cons_of_error (h : markedValue? name row = some v)
    (hv : Value.ofStored v = .error cause) :
    markedFrom name index (row :: rest) = .error (.markedItem index name cause) := by
  unfold markedValue? at h
  rw [markedFrom, h]
  dsimp only
  rw [hv]

/-- A row before others that is marked and readable, or not asked for, only moves a failure. -/
lemma MarkedFails.cons (h : MarkedFails name rows i cause)
    (hrow : ∀ v, markedValue? name row = some v → ∃ w, Value.ofStored v = .ok w) :
    MarkedFails name (row :: rows) (i + 1) cause := by
  refine ⟨h.fails, fun j hj => ?_⟩
  cases j with
  | zero => exact hrow
  | succ j => exact h.first j (Nat.lt_of_succ_lt_succ hj)

/-- Values that can all be read are given in the order of their rows. -/
lemma markedFrom_of_markedAre (h : MarkedAre name rows values) (index : Nat) :
    markedFrom name index rows = .ok values := by
  induction rows generalizing index values with
  | nil =>
    cases h
    rfl
  | cons row rest ih =>
    unfold MarkedAre at h
    cases hrow : markedValue? name row with
    | none =>
      rw [List.filterMap_cons_none hrow] at h
      rw [markedFrom_cons_of_none hrow, ih h]
    | some v =>
      rw [List.filterMap_cons_some hrow] at h
      cases h with
      | cons hv hrest =>
        rw [markedFrom_cons_of_ok hrow hv, ih hrest]
        rfl

/-- The error is that of the first value that cannot be read. -/
lemma markedFrom_of_markedFails (h : MarkedFails name rows i cause) (index : Nat) :
    markedFrom name index rows = .error (.markedItem (index + i) name cause) := by
  induction rows generalizing index i with
  | nil =>
    obtain ⟨v, hv, -⟩ := h.fails
    cases hv
  | cons row rest ih =>
    cases i with
    | zero =>
      obtain ⟨v, hrow, hv⟩ := h.fails
      exact markedFrom_cons_of_error hrow hv
    | succ i =>
      have hrest : MarkedFails name rest i cause :=
        ⟨h.fails, fun j hj => h.first (j + 1) (Nat.succ_lt_succ hj)⟩
      have hfailed := ih hrest (index + 1)
      rw [Nat.add_assoc, Nat.add_comm 1 i] at hfailed
      cases hrow : markedValue? name row with
      | none => rw [markedFrom_cons_of_none hrow, hfailed]
      | some v =>
        obtain ⟨w, hw⟩ := h.first 0 (Nat.succ_pos i) v hrow
        rw [markedFrom_cons_of_ok hrow hw, hfailed]
        rfl

/-- Either all values can be read or there is a first one that cannot. -/
lemma markedAre_or_markedFails (name : String) (rows : List (Item × Bool)) :
    (∃ values, MarkedAre name rows values) ∨ ∃ i cause, MarkedFails name rows i cause := by
  induction rows with
  | nil => exact .inl ⟨[], .nil⟩
  | cons row rest ih =>
    cases hrow : markedValue? name row with
    | none =>
      have hskip : ∀ v, markedValue? name row = some v → ∃ w, Value.ofStored v = .ok w := by
        rw [hrow]
        exact nofun
      refine ih.imp ?_ fun ⟨i, cause, h⟩ => ⟨i + 1, cause, h.cons hskip⟩
      rintro ⟨values, h⟩
      refine ⟨values, ?_⟩
      rwa [MarkedAre, List.filterMap_cons_none hrow]
    | some v =>
      cases hv : Value.ofStored v with
      | error cause => exact .inr ⟨0, cause, ⟨v, hrow, hv⟩, nofun⟩
      | ok w =>
        have hread : ∀ v', markedValue? name row = some v' → ∃ w, Value.ofStored v' = .ok w := by
          rintro v' hv'
          cases hrow.symm.trans hv'
          exact ⟨w, hv⟩
        refine ih.imp ?_ fun ⟨i, cause, h⟩ => ⟨i + 1, cause, h.cons hread⟩
        rintro ⟨values, h⟩
        refine ⟨w :: values, ?_⟩
        rw [MarkedAre, List.filterMap_cons_some hrow]
        exact .cons hv h

/-- A call for marked rows gives what they have under the name that is its argument, or fails at the
first that cannot be read. -/
lemma apply_marked {env : Environment} {arg : Value} (harg : arg.asText? = some name)
    (hrows : env.rows = some rows) :
    (∀ v, apply env .marked [arg] = .ok v ↔ ∃ values, v = .list values ∧ MarkedAre name rows values)
      ∧ ∀ e, apply env .marked [arg] = .error e
        ↔ ∃ i cause, e = .markedItem i name cause ∧ MarkedFails name rows i cause := by
  have happly : apply env .marked [arg] = (markedFrom name 0 rows).map .list := by
    show run env .marked [arg] = _
    rw [run, textArg, harg, hrows]
    show (do return Value.list (← markedFrom name 0 rows)) = _
    cases markedFrom name 0 rows <;> rfl
  apply outcome_iff
  · rintro v ⟨values, rfl, h⟩
    rw [happly, markedFrom_of_markedAre h]
    rfl
  · rintro e ⟨i, cause, rfl, h⟩
    rw [happly, markedFrom_of_markedFails h, Nat.zero_add]
    rfl
  · refine (markedAre_or_markedFails name rows).imp ?_ fun ⟨i, cause, h⟩ => ⟨_, i, cause, rfl, h⟩
    rintro ⟨values, h⟩
    exact ⟨_, values, rfl, h⟩

end TableQuery.Builtin
