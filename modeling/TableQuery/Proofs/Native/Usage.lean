import TableQuery.Plan
import TableQuery.Proofs.Native.Builder
import TableQuery.Proofs.Native.Occurrences

/-!
# Use of placeholders

What is built uses exactly the placeholders that are given out for it: every new name and every
constant is written, and a constant only once. What fails to be built has given out placeholders as
well, and those before it stay.
-/

namespace TableQuery.Native

/-- The numbers of the constants among placeholders. -/
def valueNumbers (used : List Placeholder) : List Nat :=
  used.filterMap fun
    | .name _ => none
    | .value n => some n

namespace Placeholders

/-- Placeholders become others without losing their meaning, and no name gets a second one. -/
structure Grows (p q : Placeholders) : Prop where
  le : p ≤ q
  nodup : p.names.Nodup → q.names.Nodup

/-- Placeholders become others while `used` is written: the new names are in it, and the new
constants are in it in the order of their numbers. -/
structure Gives (p q : Placeholders) (used : List Placeholder) : Prop extends Grows p q where
  names : ∀ n, n < q.names.length ↔ n < p.names.length ∨ .name n ∈ used
  values : List.range p.values.length ++ valueNumbers used = List.range q.values.length

variable {p q r : Placeholders} {used more : List Placeholder}

/-- Placeholders that do not change keep their meaning. -/
lemma Grows.refl (p : Placeholders) : Grows p p :=
  ⟨le_refl p, id⟩

/-- What keeps its meaning twice keeps it. -/
lemma Grows.trans (hpq : Grows p q) (hqr : Grows q r) : Grows p r :=
  ⟨le_trans hpq.le hqr.le, hqr.nodup ∘ hpq.nodup⟩

/-- Nothing is given out where nothing is written. -/
lemma Gives.refl (p : Placeholders) : Gives p p [] where
  toGrows := .refl p
  names _ := by simp
  values := List.append_nil _

/-- What is given out in two steps is written one after the other. -/
lemma Gives.trans (hpq : Gives p q used) (hqr : Gives q r more) : Gives p r (used ++ more) where
  toGrows := hpq.toGrows.trans hqr.toGrows
  names n := by rw [hqr.names, hpq.names, List.mem_append, or_assoc]
  values := by
    rw [valueNumbers, List.filterMap_append, ← List.append_assoc]
    exact (congrArg (· ++ _) hpq.values).trans hqr.values

/-- The number of a name is given out as it is written. -/
lemma gives_name (s : String) (p : Placeholders) : Gives p (p.name s).2 [.name (p.name s).1] := by
  rcases p.name_cases s with ⟨n, hn, hname⟩ | ⟨hnew, hname⟩
  · rw [hname]
    refine ⟨.refl p, fun m => ?_, List.append_nil _⟩
    obtain ⟨hlt, -⟩ := List.getElem?_eq_some_iff.1 hn
    rw [List.mem_singleton, Placeholder.name.injEq]
    exact ⟨.inl, fun h => h.elim id fun heq => heq ▸ hlt⟩
  · rw [hname]
    refine ⟨⟨⟨List.prefix_append .., List.prefix_rfl⟩, fun hnodup => ?_⟩, fun m => ?_,
      List.append_nil _⟩
    · rw [← List.concat_eq_append]
      exact hnodup.concat hnew
    · rw [List.mem_singleton, Placeholder.name.injEq, List.length_append, List.length_singleton]
      exact Nat.lt_succ_iff_lt_or_eq

/-- The number of a constant is given out as it is written. -/
lemma gives_value (v : Stored) (p : Placeholders) :
    Gives p (p.value v).2 [.value (p.value v).1] where
  le := ⟨List.prefix_rfl, List.prefix_append ..⟩
  nodup := id
  names n := by
    rw [List.mem_singleton]
    exact (or_iff_left nofun).symm
  values := by
    change List.range p.values.length ++ [p.values.length] = List.range (p.values ++ [v]).length
    rw [List.length_append, List.length_singleton, List.range_succ]

/-- The numbers of a path are given out in the order of its steps. -/
lemma gives_steps (path : List TableQuery.Step) (p : Placeholders) :
    Gives p (p.steps path).2 ((p.steps path).1.flatMap Step.placeholders) := by
  induction path generalizing p with
  | nil => exact .refl p
  | cons step rest ih =>
    cases step with
    | index i => exact ih p
    | key k => exact (p.gives_name k).trans (ih (p.name k).2)

end Placeholders

namespace Build

open Placeholders

variable {α β : Type} {R : α → List Placeholder → Prop} {S : β → List Placeholder → Prop}

/-- What is built stands in a relation to the placeholders that are given out and used for it. If
it fails, then those before it keep their meaning. -/
structure Uses (b : Build α) (R : α → List Placeholder → Prop) : Prop where
  ok : ∀ p a q, b p = .ok a q → ∃ used, R a used ∧ Gives p q used
  error : ∀ p e q, b p = .error e q → Grows p q

/-- A value that is given back has used no placeholders. -/
lemma uses_pure {a : α} (h : R a []) : Uses (pure a) R where
  ok := by
    rintro p _ _ ⟨⟩
    exact ⟨[], h, .refl p⟩
  error := nofun

/-- An error that is thrown has used no placeholders. -/
lemma uses_throw (e : QueryError) : Uses (throw e : Build α) R where
  ok := nofun
  error := by
    rintro p _ _ ⟨⟩
    exact .refl p

/-- A computation without placeholders has used none. -/
lemma uses_lift {r : Except QueryError α} (h : ∀ a, R a []) : Uses (lift r) R := by
  cases r with
  | ok a => exact uses_pure (h a)
  | error e => exact uses_throw e

/-- What is built in two steps uses what they use, one after the other. -/
lemma Uses.bind {b : Build α} {f : α → Build β} (hb : Uses b R)
    (hf : ∀ a, Uses (f a) fun x more => ∀ used, R a used → S x (used ++ more)) :
    Uses (b >>= f) S where
  ok p x q h := by
    obtain ⟨a, p₁, ha, h⟩ := run_bind_eq_ok_iff.1 h
    obtain ⟨used, hR, hused⟩ := hb.ok p a p₁ ha
    obtain ⟨more, hS, hmore⟩ := (hf a).ok p₁ x q h
    exact ⟨used ++ more, hS used hR, hused.trans hmore⟩
  error p e q h := by
    rcases run_bind_eq_error_iff.1 h with h | ⟨a, p₁, ha, h⟩
    · exact hb.error p e q h
    · obtain ⟨_, -, hused⟩ := hb.ok p a p₁ ha
      exact hused.toGrows.trans ((hf a).error p₁ e q h)

/-- What gives out placeholders and is made of them uses them. -/
lemma uses_number {f : Placeholders → α × Placeholders} {g : α → List Placeholder}
    (h : ∀ p, Gives p (f p).2 (g (f p).1)) : Uses (number f) fun a used => used = g a where
  ok := by
    rintro p _ _ ⟨⟩
    exact ⟨_, rfl, h p⟩
  error := nofun

/-- A name uses its placeholder. -/
lemma uses_name (s : String) :
    Uses (number (Placeholders.name s)) fun n used => used = [.name n] :=
  uses_number (gives_name s)

/-- A constant uses its placeholder. -/
lemma uses_value (v : Stored) :
    Uses (number (Placeholders.value v)) fun n used => used = [.value n] :=
  uses_number (gives_value v)

/-- A path uses the placeholders of its steps. -/
lemma uses_steps (path : List TableQuery.Step) :
    Uses (number (·.steps path)) fun steps used => used = steps.flatMap Step.placeholders :=
  uses_number (gives_steps path)

end Build

open Build

variable {env : Environment}

/-- An operand uses the placeholders that are written in it. -/
lemma uses_operand (t : Term) : Uses (operand env t) fun o used => used = o.placeholders := by
  unfold operand
  split
  · have hlift : Uses (lift (t.eval env [])) fun _ used => used = [] := uses_lift fun _ => rfl
    refine hlift.bind fun v => (uses_value v.toStored).bind fun n => uses_pure ?_
    rintro _ rfl _ rfl
    rfl
  · split
    next path _ =>
      refine (uses_steps path.steps).bind fun steps => uses_pure ?_
      rintro _ rfl
      exact List.append_nil _
    next path _ =>
      refine (uses_steps path.steps).bind fun steps => uses_pure ?_
      rintro _ rfl
      exact List.append_nil _
    next => exact uses_throw _

/-- A condition that is built uses the placeholders in it. -/
lemma uses_condition : ∀ t : Term,
    Uses (condition env t) fun c used => used = c.placeholders
  | .compare op l r _ => by
    refine (uses_operand l).bind fun left => (uses_operand r).bind fun right => uses_pure ?_
    rintro _ rfl _ rfl
    rw [List.append_nil]
    rfl
  | .and l r | .or l r => by
    refine (uses_condition l).bind fun left => (uses_condition r).bind fun right => uses_pure ?_
    rintro _ rfl _ rfl
    rw [List.append_nil]
    rfl
  | .not t => by
    refine (uses_condition t).bind fun c => uses_pure ?_
    rintro _ rfl
    exact List.append_nil _
  | .is path test isNegated => by
    refine (uses_steps path.steps).bind fun steps => ?_
    cases test with
    | any =>
      refine uses_pure ?_
      rintro _ rfl
      rw [List.append_nil]
      cases isNegated <;> rfl
    | tag t =>
      refine (uses_value _).bind fun n => uses_pure ?_
      rintro _ rfl _ rfl
      rw [List.append_nil]
      rfl
  | .value _ | .name _ | .arith .. | .neg _ | .call .. => uses_throw _

/-- The comparison of a key uses the placeholders in it. -/
lemma uses_keyComparison (name : String) (op : Comparison) (v : Stored) :
    Uses (KeyCondition.comparison name op v) fun c used => used = c.placeholders := by
  refine (uses_name name).bind fun key => (uses_value v).bind fun constant => uses_pure ?_
  rintro _ rfl _ rfl
  rfl

/-- The comparisons of a key condition use the placeholders that are written in them. -/
lemma uses_comparisons (c : KeyCondition) :
    Uses c.comparisons fun cs used => used = cs.flatMap Condition.placeholders := by
  obtain ⟨index, partitionKey, partitionValue, sortKey, sort⟩ := c
  refine (uses_keyComparison partitionKey .eq partitionValue).bind fun partition => ?_
  match sortKey, sort with
  | some name, some bound =>
    refine (uses_keyComparison name bound.comparison bound.constant).bind fun sorting =>
      uses_pure ?_
    rintro _ rfl _ rfl
    simp
  | some _, none | none, some _ | none, none =>
    refine uses_pure ?_
    rintro _ rfl
    simp

/-- A filter, if there is one, uses the placeholders that are written in it. -/
lemma uses_filterCondition (filter : Option Term) :
    Uses (Plan.filterCondition env filter) fun c used =>
      used = c.toList.flatMap Condition.placeholders := by
  cases filter with
  | none => exact uses_pure rfl
  | some t =>
    refine (uses_condition t).bind fun c => uses_pure ?_
    rintro _ rfl
    simp

/-- The parts of a plan on a key condition use the placeholders in both. -/
lemma uses_parts (key : KeyCondition) (filter : Option Term) :
    Uses (do
      let comparisons ← key.comparisons
      return (comparisons, ← Plan.filterCondition env filter)) fun parts used =>
        used = (parts.1 ++ parts.2.toList).flatMap Condition.placeholders := by
  refine (uses_comparisons key).bind fun comparisons =>
    (uses_filterCondition filter).bind fun c => uses_pure ?_
  rintro _ rfl _ rfl
  rw [List.append_nil, List.flatMap_append]

/-- What a plan builds uses what is given out for it from no placeholders on. -/
lemma Build.Uses.of_build {α : Type} {b : Build α} {R : α → List Placeholder → Prop}
    (hb : Uses b R) {a : α} {p : Placeholders} (h : Plan.build b = .ok (a, p)) :
    ∃ used, R a used ∧ Placeholders.Gives {} p used := by
  unfold Plan.build at h
  split at h
  next hrun =>
    cases h
    exact hb.ok _ _ _ hrun
  next => cases h

end TableQuery.Native
