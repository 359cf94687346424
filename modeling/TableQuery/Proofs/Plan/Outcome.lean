import TableQuery.Plan
import TableQuery.Proofs.Plan.Selection
import TableQuery.Proofs.Term.KeyTerms
import TableQuery.Proofs.Term.Untagged

/-!
# Whether there is a plan

Whether a term has a condition of the store, and the error if it has none, is settled by the term
alone: neither the placeholders that were given out before nor the conjuncts around it matter. A
comparison that a plan takes for its key condition always has one. So the outcome of planning is
that of building the condition of the whole term, whatever index is used.
-/

namespace TableQuery

/-- Whether a computation succeeds, and its error if it does not. -/
def outcome {α : Type} (x : Except QueryError α) : Except QueryError Unit :=
  x.map fun _ => ()

section Outcome

variable {α β : Type}

/-- The outcome of two steps is that of the second, if the first succeeds. -/
lemma outcome_bind (x : Except QueryError α) (f : α → Except QueryError β) :
    outcome (x >>= f) = x >>= fun a => outcome (f a) := by
  cases x <;> rfl

/-- A second step that cannot fail does not change the outcome. -/
lemma outcome_bind_pure (x : Except QueryError α) (g : α → β) :
    outcome (x >>= fun a => pure (g a)) = outcome x := by
  cases x <;> rfl

/-- Computations that are alike have outcomes that are. -/
lemma Alike.outcome {x y : Except QueryError α} (h : Alike x y) :
    Alike (outcome x) (outcome y) := by
  have hbind (x : Except QueryError α) : TableQuery.outcome x = x >>= fun _ => .ok () := by
    cases x <;> rfl
  rw [hbind, hbind]
  exact h.bind fun _ => .refl _

end Outcome

namespace Term

/-- An operand that the store evaluates: a path, or the size under one. -/
def isStoreOperand : Term → Bool
  | .name _ => true
  | .call .size [.name _] => true
  | _ => false

/-- Whether a term has an operand of the store. -/
def checkOperand (env : Environment) (t : Term) : Except QueryError Unit :=
  if t.isConstant then outcome (t.eval env [])
  else if t.isStoreOperand then .ok ()
  else .error (.unsupported (.operand t))

/-- Whether a term has a condition of the store. -/
def check (env : Environment) : Term → Except QueryError Unit
  | .compare _ l r _ => do
    l.checkOperand env
    r.checkOperand env
  | .and l r | .or l r => do
    l.check env
    r.check env
  | .not t => t.check env
  | .is .. => .ok ()
  | t => .error (.unsupported (.condition t))

variable {env : Environment}

section Untagged

/-- The tags do not matter for whether the store evaluates an operand. -/
lemma isStoreOperand_untagged (t : Term) : t.untagged.isStoreOperand = t.isStoreOperand := by
  cases t with
  | call f args =>
    cases f with
    | size =>
      cases args with
      | nil => rfl
      | cons arg rest => cases rest <;> cases arg <;> rfl
    | _ => rfl
  | _ => rfl

/-- The tags do not matter for the check of an operand. -/
lemma alike_checkOperand (t : Term) : Alike (t.untagged.checkOperand env) (t.checkOperand env) := by
  have hmessage : (Unsupported.operand t.untagged).message = (Unsupported.operand t).message :=
    congrArg (fun text => "'" ++ text ++ "' has no store equivalent") t.text_untagged
  unfold checkOperand
  rw [isConstant_untagged, isStoreOperand_untagged]
  split
  · exact (alike_eval env [] t).outcome
  split
  · rfl
  · exact .unsupported hmessage

/-- The tags are not in what is told of a condition that the store does not have. -/
lemma alike_unsupported_condition (t : Term) :
    Alike (.error (.unsupported (.condition t.untagged)) : Except QueryError Unit)
      (.error (.unsupported (.condition t))) :=
  .unsupported (congrArg (fun text => "'" ++ text ++ "' cannot be used as a store condition")
    t.text_untagged)

/-- Tags do not matter for whether a term has a condition. -/
lemma alike_check : ∀ t : Term, Alike (t.untagged.check env) (t.check env)
  | .compare _ l r _ => (alike_checkOperand l).bind fun _ => alike_checkOperand r
  | .and l r | .or l r => (alike_check l).bind fun _ => alike_check r
  | .not t => alike_check t
  | .is .. => .refl _
  | .value v => alike_unsupported_condition (.value v)
  | .name path => alike_unsupported_condition (.name path)
  | .arith op l r => alike_unsupported_condition (.arith op l r)
  | .neg t => alike_unsupported_condition (.neg t)
  | .call f args => alike_unsupported_condition (.call f args)

end Untagged

section Conjuncts

/-- A term has a condition if all terms that it joins do. -/
lemma Joins.check_eq {ts : List Term} {t : Term} (h : Joins ts t) :
    t.check env = forM ts (check env) := by
  induction h with
  | single t =>
    rw [List.forM_cons]
    cases check env t <;> rfl
  | and _ _ ihl ihr => rw [List.forM_append, ← ihl, ← ihr, check]

/-- A term has a condition if all of its conjuncts do. -/
lemma check_eq_forM (t : Term) : t.check env = forM t.conjuncts (check env) :=
  (joins_conjuncts t).check_eq

/-- A conjunction is checked part by part. -/
lemma check_conjunction? (ts : List Term) :
    (conjunction? ts).elim (.ok ()) (check env) = forM ts (check env) :=
  elim_conjunction? (F := fun ts => forM ts (check env)) Joins.check_eq ts

/-- Terms that have conditions can be left out. -/
lemma forM_check_filter {terms : List (Term × Nat)} {keep : Term × Nat → Bool}
    (h : ∀ x ∈ terms, keep x = false → x.1.check env = .ok ()) :
    forM ((terms.filter keep).map Prod.fst) (check env)
      = forM (terms.map Prod.fst) (check env) := by
  induction terms with
  | nil => rfl
  | cons x rest ih =>
    rw [List.forall_mem_cons] at h
    cases hx : keep x with
    | true =>
      rw [List.filter_cons_of_pos hx, List.map_cons, List.map_cons, List.forM_cons, List.forM_cons,
        ih h.2]
    | false =>
      rw [List.filter_cons_of_neg (Bool.eq_false_iff.1 hx), List.map_cons, List.forM_cons,
        h.1 hx, ih h.2]
      rfl

end Conjuncts

/-- A comparison of a key with a constant passes the check. -/
lemma check_of_keyTerm? {t : Term} {k : String × Comparison × Value} (h : t.keyTerm? = some k) :
    t.check env = .ok () := by
  rw [keyTerm?_eq_some_iff.1 h]
  rfl

end Term

namespace Native.Build

variable {α β : Type} {b : Build α} {r : Except QueryError Unit}

/-- Whether building succeeds, and the error if it does not. -/
def verdict : EStateM.Result QueryError Placeholders α → Except QueryError Unit
  | .ok _ _ => .ok ()
  | .error e _ => .error e

/-- The outcome of building is settled, whatever placeholders were given out before. -/
def Settles (b : Build α) (r : Except QueryError Unit) : Prop :=
  ∀ p, verdict (b p) = r

/-- A value that is given back is a success. -/
lemma settles_pure (a : α) : Settles (pure a) (.ok ()) :=
  fun _ => rfl

/-- An error that is thrown is a failure with it. -/
lemma settles_throw (e : QueryError) : Settles (throw e : Build α) (.error e) :=
  fun _ => rfl

/-- A computation that gives out no placeholders settles its outcome. -/
lemma settles_lift (x : Except QueryError α) : Settles (lift x) (outcome x) := by
  cases x with
  | ok a => exact settles_pure a
  | error e => exact settles_throw e

/-- A placeholder can always be given out. -/
lemma settles_number (f : Placeholders → α × Placeholders) : Settles (number f) (.ok ()) :=
  fun _ => rfl

/-- Building in two steps fails in the first one, or as the second one does. -/
lemma Settles.bind {f : α → Build β} {r' : Except QueryError Unit} (hb : Settles b r)
    (hf : ∀ a, Settles (f a) r') : Settles (b >>= f) (do r; r') := by
  intro p
  change verdict (EStateM.bind b f p) = _
  unfold EStateM.bind
  rw [← hb p]
  split
  next a q h =>
    rw [h]
    exact hf a q
  next e q h => rw [h]; rfl

/-- A second step that cannot fail does not matter. -/
lemma Settles.bind_ok {f : α → Build β} (hb : Settles b r) (hf : ∀ a, Settles (f a) (.ok ())) :
    Settles (b >>= f) r := by
  have hbind : Settles (b >>= f) (do r; .ok ()) := hb.bind hf
  cases r <;> exact hbind

/-- A plan is built with the outcome that is settled. -/
lemma Settles.outcome_build (hb : Settles b r) : outcome (Plan.build b) = r := by
  unfold Plan.build EStateM.run
  rw [← hb {}]
  cases b {} <;> rfl

end Native.Build

namespace Native

open Build

variable {env : Environment}

/-- The outcome of an operand is that of its check. -/
lemma settles_operand (t : Term) : Settles (operand env t) (t.checkOperand env) := by
  unfold operand Term.checkOperand
  split
  · exact (settles_lift _).bind_ok fun v => (settles_number _).bind_ok fun n => settles_pure _
  split
  next => exact (settles_number _).bind_ok fun _ => settles_pure _
  next => exact (settles_number _).bind_ok fun _ => settles_pure _
  next hname hsize =>
    have hother : t.isStoreOperand = false := by
      unfold Term.isStoreOperand
      split
      next path _ => exact absurd rfl (hname path)
      next path _ => exact absurd rfl (hsize path)
      next => rfl
    rw [hother]
    exact settles_throw _

/-- Building the condition of a term succeeds exactly if the term has one. -/
lemma settles_condition : ∀ t : Term, Settles (condition env t) (t.check env)
  | .compare op l r _ =>
    (settles_operand l).bind fun _ => (settles_operand r).bind_ok fun _ => settles_pure _
  | .and l r | .or l r =>
    (settles_condition l).bind fun _ => (settles_condition r).bind_ok fun _ => settles_pure _
  | .not t => (settles_condition t).bind_ok fun _ => settles_pure _
  | .is path test isNegated => by
    refine (settles_number _).bind_ok fun steps => ?_
    cases test with
    | any => exact settles_pure _
    | tag t => exact (settles_number _).bind_ok fun _ => settles_pure _
  | .value _ | .name _ | .arith .. | .neg _ | .call .. => settles_throw _

/-- The comparison of a key cannot fail. -/
lemma settles_keyComparison (name : String) (op : Comparison) (v : Stored) :
    Settles (KeyCondition.comparison name op v) (.ok ()) :=
  (settles_number _).bind_ok fun _ => (settles_number _).bind_ok fun _ => settles_pure _

/-- The comparisons of a key condition cannot fail. -/
lemma settles_comparisons (c : KeyCondition) : Settles c.comparisons (.ok ()) := by
  obtain ⟨index, partitionKey, partitionValue, sortKey, sort⟩ := c
  refine (settles_keyComparison _ _ _).bind_ok fun partition => ?_
  match sortKey, sort with
  | some _, some _ => exact (settles_keyComparison _ _ _).bind_ok fun _ => settles_pure _
  | some _, none | none, some _ | none, none => exact settles_pure _

/-- The outcome of a filter, if there is one, is that of its check. -/
lemma settles_filterCondition (filter : Option Term) :
    Settles (Plan.filterCondition env filter) (filter.elim (.ok ()) (Term.check env)) := by
  cases filter with
  | none => exact settles_pure _
  | some t => exact (settles_condition t).bind_ok fun _ => settles_pure _

end Native

namespace Plan

open Native.Build

variable {env : Environment} {schema : TableSchema}

/-- The terms that a plan does not use have conditions exactly if all terms do. -/
lemma check_residual? {t : Term} {index : Option String} {keys : KeySchema} {key : KeyCondition}
    {used : List Nat} (h : select? t.conjuncts.zipIdx index keys = some (key, used)) :
    (residual? t.conjuncts.zipIdx used).elim (.ok ()) (Term.check env) = t.check env := by
  rw [residual?_eq, Term.check_conjunction?, unused, Term.forM_check_filter, List.zipIdx_map_fst,
    ← Term.check_eq_forM]
  intro x hx hused
  rw [decide_eq_false_iff_not, not_not] at hused
  obtain ⟨_, _, _, hkey, -⟩ := keyTerm?_of_used h hx hused
  exact Term.check_of_keyTerm? hkey

/-- A term has a plan exactly if it has a condition of the store. -/
lemma outcome_ofTerm (t : Term) : outcome (ofTerm env schema t) = t.check env := by
  unfold ofTerm
  dsimp only
  split
  next =>
    rw [outcome_bind_pure]
    exact (Native.settles_condition t).outcome_build
  next key used hselect =>
    obtain ⟨⟨index, keys⟩, -, hselect⟩ := List.exists_of_findSome?_eq_some hselect
    rw [outcome_bind_pure, ← check_residual? hselect]
    apply Settles.outcome_build
    exact (Native.settles_comparisons key).bind fun _ =>
      (Native.settles_filterCondition _).bind_ok fun _ => settles_pure _

/-- Compilation succeeds or fails as parsing, lowering and checking do one after the other. -/
lemma outcome_compile (env : Environment) (schema : TableSchema) (text : String) :
    outcome (compile env schema text) = (do
      let e ← (Expr.parse text).mapError .malformed
      let t ← Term.ofExpr schema e
      t.check env) := by
  unfold compile
  rw [outcome_bind]
  congr 1
  funext e
  rw [outcome_bind]
  congr 1
  funext t
  exact outcome_ofTerm t

/-- Whether an expression has a plan does not depend on the table. It has one exactly if it is
lowered and its whole term has a condition of the store, and else fails as these do. -/
theorem compile_schema_independent (env : Environment) (schema schema' : TableSchema)
    (text : String) :
    Alike (outcome (compile env schema text)) (outcome (compile env schema' text))
      ∧ outcome (compile env schema text) = (do
        let e ← (Expr.parse text).mapError .malformed
        let t ← Term.ofExpr schema e
        outcome (build (Native.condition env t))) := by
  rw [outcome_compile, outcome_compile]
  constructor
  · refine (Alike.refl _).bind fun e => ?_
    exact Term.alike_bind (Term.map_untagged_ofExpr schema schema' e) Term.alike_check
  · congr 1
    funext e
    congr 1
    funext t
    exact (Native.settles_condition t).outcome_build.symm

end Plan

end TableQuery
