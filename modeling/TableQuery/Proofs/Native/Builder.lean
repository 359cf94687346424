import TableQuery.Proofs.Native.Placeholders

/-!
# What is built

Placeholders are given out once and for all: what a numbered condition means when it is built it
still means when more of them have been given out.
-/

namespace TableQuery.Native

/-- Later placeholders: more names and constants may have been given numbers. -/
instance : LE Placeholders :=
  ⟨fun p q => p.names <+: q.names ∧ p.values <+: q.values⟩

namespace Placeholders

variable {p q r : Placeholders}

/-- Placeholders are later than themselves. -/
lemma le_refl (p : Placeholders) : p ≤ p :=
  ⟨List.prefix_rfl, List.prefix_rfl⟩

/-- What is later than later placeholders is later. -/
lemma le_trans (hpq : p ≤ q) (hqr : q ≤ r) : p ≤ r :=
  ⟨hpq.1.trans hqr.1, hpq.2.trans hqr.2⟩

/-- What has a number keeps it. -/
lemma getElem?_of_prefix {α : Type} {xs ys : List α} (h : xs <+: ys) {i : Nat} {x : α}
    (hx : xs[i]? = some x) : ys[i]? = some x := by
  obtain ⟨more, rfl⟩ := h
  obtain ⟨hi, -⟩ := List.getElem?_eq_some_iff.1 hx
  rw [List.getElem?_append_left hi, hx]

/-- A name has a number already, or it is a new one and gets the next number. -/
lemma name_cases (s : String) (p : Placeholders) :
    (∃ n, p.names[n]? = some s ∧ p.name s = (n, p))
      ∨ s ∉ p.names ∧ p.name s = (p.names.length, { p with names := p.names ++ [s] }) := by
  unfold name
  split
  next n hn =>
    obtain ⟨hlt, heq, -⟩ := List.findIdx?_eq_some_iff_getElem.1 hn
    refine .inl ⟨n, ?_, rfl⟩
    rw [List.getElem?_eq_getElem hlt, beq_iff_eq.1 heq]
  next hnone =>
    refine .inr ⟨fun hs => ?_, rfl⟩
    exact Bool.eq_false_iff.1 (List.findIdx?_eq_none_iff.1 hnone s hs) (beq_self_eq_true s)

/-- A name has the number that is given to it. -/
lemma name_spec (s : String) (p : Placeholders) :
    p ≤ (p.name s).2 ∧ (p.name s).2.names[(p.name s).1]? = some s := by
  rcases p.name_cases s with ⟨n, hn, hname⟩ | ⟨-, hname⟩
  · rw [hname]
    exact ⟨le_refl p, hn⟩
  · rw [hname]
    exact ⟨⟨List.prefix_append .., List.prefix_rfl⟩, List.getElem?_concat_length⟩

/-- A constant has the number that is given to it. -/
lemma value_spec (v : Stored) (p : Placeholders) :
    p ≤ (p.value v).2 ∧ (p.value v).2.values[(p.value v).1]? = some v :=
  ⟨⟨List.prefix_rfl, List.prefix_append ..⟩, List.getElem?_concat_length⟩

/-- The steps of a path have the numbers that are given to their names. -/
lemma steps_spec (path : List TableQuery.Step) (p : Placeholders) :
    p ≤ (p.steps path).2
      ∧ ∀ q, (p.steps path).2 ≤ q → q.pathSteps? (p.steps path).1 = some path := by
  induction path generalizing p with
  | nil => exact ⟨le_refl p, fun _ _ => rfl⟩
  | cons step rest ih =>
    cases step with
    | index i =>
      obtain ⟨hle, hrest⟩ := ih p
      refine ⟨hle, fun q hq => ?_⟩
      change (do return TableQuery.Step.index i :: (← q.pathSteps? (p.steps rest).1)) = _
      rw [hrest q hq]
      rfl
    | key k =>
      obtain ⟨hname, hk⟩ := p.name_spec k
      obtain ⟨hle, hrest⟩ := ih (p.name k).2
      refine ⟨le_trans hname hle, fun q hq => ?_⟩
      change (do return TableQuery.Step.key (← q.names[(p.name k).1]?)
        :: (← q.pathSteps? ((p.name k).2.steps rest).1)) = _
      rw [hrest q hq, getElem?_of_prefix (le_trans hle hq).1 hk]
      rfl

end Placeholders

namespace Build

variable {α β : Type} {P : Placeholders → α → Prop} {Q : Placeholders → β → Prop}

/-- What is built has a property by the placeholders that are there then, and by all later ones. -/
def Yields (b : Build α) (P : Placeholders → α → Prop) : Prop :=
  ∀ p a p', b p = .ok a p' → p ≤ p' ∧ ∀ q, p' ≤ q → P q a

/-- A value that is given back has the property if it does by all placeholders. -/
lemma yields_pure {a : α} (h : ∀ q, P q a) : Yields (pure a) P := by
  rintro p _ _ ⟨⟩
  exact ⟨Placeholders.le_refl p, fun q _ => h q⟩

/-- An error that is thrown yields nothing. -/
lemma yields_throw (e : QueryError) : Yields (throw e : Build α) P := by
  rintro p a p' ⟨⟩

/-- A computation without placeholders yields its value. -/
lemma yields_lift {r : Except QueryError α} : Yields (lift r) fun _ a => r = .ok a := by
  rintro p a p' h
  cases r with
  | error e => cases h
  | ok b =>
    cases h
    exact ⟨Placeholders.le_refl p, fun _ _ => rfl⟩

/-- Building in two steps succeeds if the first one does and the second one does with its result. -/
lemma run_bind_eq_ok_iff {b : Build α} {f : α → Build β} {p q : Placeholders} {x : β} :
    (b >>= f) p = .ok x q ↔ ∃ a p₁, b p = .ok a p₁ ∧ f a p₁ = .ok x q := by
  change EStateM.bind b f p = _ ↔ _
  unfold EStateM.bind
  cases b p <;> simp

/-- Building in two steps fails if the first one does, or the second one with its result. -/
lemma run_bind_eq_error_iff {b : Build α} {f : α → Build β} {p q : Placeholders} {e : QueryError} :
    (b >>= f) p = .error e q
      ↔ b p = .error e q ∨ ∃ a p₁, b p = .ok a p₁ ∧ f a p₁ = .error e q := by
  change EStateM.bind b f p = _ ↔ _
  unfold EStateM.bind
  cases b p <;> simp

/-- What is built in two steps has what the second one gives it, by what the first one gave. -/
lemma Yields.bind {b : Build α} {f : α → Build β} (hb : Yields b P)
    (hf : ∀ a, Yields (f a) fun q x => P q a → Q q x) : Yields (b >>= f) Q := by
  intro p x p' h
  obtain ⟨a, p₁, ha, h⟩ := run_bind_eq_ok_iff.1 h
  obtain ⟨hle, hP⟩ := hb p a p₁ ha
  obtain ⟨hle', hQ⟩ := hf a p₁ x p' h
  -- the placeholders of the second step are later than those of the first, so that what holds of
  -- `a` from the first on still holds
  exact ⟨Placeholders.le_trans hle hle',
    fun q hq => hQ q hq (hP q (Placeholders.le_trans hle' hq))⟩

/-- The number that is built for a name is the one it has. -/
lemma yields_name (s : String) :
    Yields (number (Placeholders.name s)) fun q n => q.names[n]? = some s := by
  rintro p _ _ ⟨⟩
  obtain ⟨hle, hs⟩ := p.name_spec s
  exact ⟨hle, fun q hq => Placeholders.getElem?_of_prefix hq.1 hs⟩

/-- The number that is built for a constant is the one it has. -/
lemma yields_value (v : Stored) :
    Yields (number (Placeholders.value v)) fun q n => q.values[n]? = some v := by
  rintro p _ _ ⟨⟩
  obtain ⟨hle, hv⟩ := p.value_spec v
  exact ⟨hle, fun q hq => Placeholders.getElem?_of_prefix hq.2 hv⟩

/-- The steps that are built for a path are its own, by the numbers of their names. -/
lemma yields_steps (path : List TableQuery.Step) :
    Yields (number (·.steps path)) fun q steps => q.pathSteps? steps = some path := by
  rintro p _ _ ⟨⟩
  exact p.steps_spec path

end Build

end Native

namespace Term

open Native

/-- The operand of the store that a term is: what is the same for every row stands for the stored
form of its value. -/
def storeOperand? (env : Environment) (t : Term) : Option ResolvedOperand :=
  if t.isConstant then (t.eval env []).toOption.map fun v => .value v.toStored
  else
    match t with
    | .name path => some (.path path.steps)
    | .call .size [.name path] => some (.size path.steps)
    | _ => none

/-- The condition of the store that a term is. -/
def storeCondition? (env : Environment) : Term → Option Resolved
  | .compare op l r _ => do return .compare op (← l.storeOperand? env) (← r.storeOperand? env)
  | .and l r => do return .and (← l.storeCondition? env) (← r.storeCondition? env)
  | .or l r => do return .or (← l.storeCondition? env) (← r.storeCondition? env)
  | .not t => (t.storeCondition? env).map .not
  | .is path .any isNegated =>
    some (if isNegated then .notExists path.steps else .exists path.steps)
  | .is path (.tag t) _ => some (.type path.steps (.string t.text))
  | _ => none

end Term

namespace Native

open Build

variable {env : Environment}

/-- An operand that is built is that of its term. -/
lemma yields_operand (t : Term) : Yields (operand env t) fun q o =>
    ∃ r, t.storeOperand? env = some r ∧ q.operand? o = some r := by
  unfold operand Term.storeOperand?
  split
  · refine yields_lift.bind fun v => (yields_value v.toStored).bind fun n => yields_pure ?_
    intro q hn hv
    exact ⟨.value v.toStored, by rw [hv]; rfl, by rw [Placeholders.operand?, hn]; rfl⟩
  · split
    next path _ =>
      refine (yields_steps path.steps).bind fun steps => yields_pure fun q hsteps => ?_
      exact ⟨_, rfl, by rw [Placeholders.operand?, hsteps]; rfl⟩
    next path _ =>
      refine (yields_steps path.steps).bind fun steps => yields_pure fun q hsteps => ?_
      exact ⟨_, rfl, by rw [Placeholders.operand?, hsteps]; rfl⟩
    next => exact yields_throw _

/-- A condition that is built is that of its term. -/
lemma yields_condition : ∀ t : Term, Yields (condition env t) fun q c =>
    ∃ m, t.storeCondition? env = some m ∧ q.condition? c = some m
  | .compare op l r _ => by
    refine (yields_operand l).bind fun left => (yields_operand r).bind fun right =>
      yields_pure ?_
    rintro q ⟨b, hr, hb⟩ ⟨a, hl, ha⟩
    exact ⟨.compare op a b, by rw [Term.storeCondition?, hl, hr]; rfl,
      by rw [Placeholders.condition?, ha, hb]; rfl⟩
  | .and l r => by
    refine (yields_condition l).bind fun left => (yields_condition r).bind fun right =>
      yields_pure ?_
    rintro q ⟨b, hr, hb⟩ ⟨a, hl, ha⟩
    exact ⟨.and a b, by rw [Term.storeCondition?, hl, hr]; rfl,
      by rw [Placeholders.condition?, ha, hb]; rfl⟩
  | .or l r => by
    refine (yields_condition l).bind fun left => (yields_condition r).bind fun right =>
      yields_pure ?_
    rintro q ⟨b, hr, hb⟩ ⟨a, hl, ha⟩
    exact ⟨.or a b, by rw [Term.storeCondition?, hl, hr]; rfl,
      by rw [Placeholders.condition?, ha, hb]; rfl⟩
  | .not t => by
    refine (yields_condition t).bind fun c => yields_pure ?_
    rintro q ⟨a, ht, ha⟩
    exact ⟨.not a, by rw [Term.storeCondition?, ht]; rfl, by rw [Placeholders.condition?, ha]; rfl⟩
  | .is path .any isNegated => by
    refine (yields_steps path.steps).bind fun steps => ?_
    cases isNegated with
    | true =>
      change Yields (pure (Condition.notExists steps)) _
      exact yields_pure fun q hsteps => ⟨_, rfl, by rw [Placeholders.condition?, hsteps]; rfl⟩
    | false =>
      change Yields (pure (Condition.exists steps)) _
      exact yields_pure fun q hsteps => ⟨_, rfl, by rw [Placeholders.condition?, hsteps]; rfl⟩
  | .is path (.tag t) _ => by
    refine (yields_steps path.steps).bind fun steps => (yields_value _).bind fun n =>
      yields_pure fun q hn hsteps => ?_
    exact ⟨_, rfl, by rw [Placeholders.condition?, hsteps, hn]; rfl⟩
  | .value _ | .name _ | .arith .. | .neg _ | .call .. => yields_throw _

end Native

end TableQuery
