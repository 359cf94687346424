import TableQuery.Proofs.Expr.Meaning
import TableQuery.Proofs.Except

/-!
# Terms without key tags

A table is only seen in a term by the tags of its key comparisons. Without them terms of one
expression are the same whatever the table is; and the tags change neither the text of a term nor
its values, nor what is told of an error.
-/

namespace TableQuery

/-- What is told of an error. -/
def QueryError.told (e : QueryError) : ErrorKind × String :=
  (e.kind, e.message)

/-- Two outcomes are the same but for what is not told of an error. -/
def Alike {α : Type} (x y : Except QueryError α) : Prop :=
  x.mapError QueryError.told = y.mapError QueryError.told

namespace Alike

variable {α β : Type} {x y z : Except QueryError α}

/-- An outcome is like itself. -/
lemma refl (x : Except QueryError α) : Alike x x :=
  rfl

/-- Outcomes are alike in either direction. -/
lemma symm (h : Alike x y) : Alike y x :=
  Eq.symm h

/-- Outcomes that are like the same one are alike. -/
lemma trans (hxy : Alike x y) (hyz : Alike y z) : Alike x z :=
  Eq.trans hxy hyz

/-- Computations in two steps are alike if their first steps are and if their second steps are,
whatever the first give. -/
lemma bind {f g : α → Except QueryError β} (h : Alike x y) (hf : ∀ a, Alike (f a) (g a)) :
    Alike (x >>= f) (y >>= g) := by
  unfold Alike
  rw [mapError_bind, mapError_bind, h]
  congr 1
  exact funext hf

/-- Errors are alike if the same is told of them. -/
lemma error_iff {e e' : QueryError} :
    Alike (.error e : Except QueryError α) (.error e') ↔ e.told = e'.told :=
  ⟨Except.error.inj, congrArg Except.error⟩

/-- Of what is unsupported only the message is told. -/
lemma unsupported {a b : Unsupported} (h : a.message = b.message) :
    Alike (.error (.unsupported a) : Except QueryError α) (.error (.unsupported b)) :=
  error_iff.2 (congrArg (fun m => (ErrorKind.unsupported, "unsupported operation: " ++ m)) h)

end Alike

namespace Term

mutual

/-- The term without key tags. -/
def untagged : Term → Term
  | .value v => .value v
  | .name path => .name path
  | .compare op l r _ => .compare op l.untagged r.untagged false
  | .and l r => .and l.untagged r.untagged
  | .or l r => .or l.untagged r.untagged
  | .not t => .not t.untagged
  | .is path test isNegated => .is path test isNegated
  | .arith op l r => .arith op l.untagged r.untagged
  | .neg t => .neg t.untagged
  | .call f args => .call f (untaggedAll args)

/-- The terms without key tags. -/
def untaggedAll : List Term → List Term
  | [] => []
  | t :: rest => t.untagged :: untaggedAll rest

end

/-- Without tags the same terms are leaves. -/
lemma isLeaf_untagged (t : Term) : t.untagged.isLeaf = t.isLeaf := by
  cases t <;> rfl

mutual

/-- Without tags the same terms are constant. -/
lemma isConstant_untagged : ∀ t : Term, t.untagged.isConstant = t.isConstant
  | .value _ | .name _ | .is .. => rfl
  | .compare _ l r _ | .and l r | .or l r | .arith _ l r => by
    rw [untagged, isConstant, isConstant, isConstant_untagged l, isConstant_untagged r]
  | .not t | .neg t => by
    rw [untagged, isConstant, isConstant, isConstant_untagged t]
  | .call f args => by
    rw [untagged, isConstant, isConstant, areConstant_untaggedAll args]

/-- Without tags the same lists of terms are constant. -/
lemma areConstant_untaggedAll : ∀ ts : List Term, areConstant (untaggedAll ts) = areConstant ts
  | [] => rfl
  | t :: rest => by
    rw [untaggedAll, areConstant, areConstant, isConstant_untagged t, areConstant_untaggedAll rest]

end

mutual

/-- The text of a term does not show tags. -/
lemma text_untagged : ∀ t : Term, t.untagged.text = t.text
  | .value _ | .name _ | .is .. => rfl
  | .compare _ l r _ | .and l r | .or l r | .arith _ l r => by
    rw [untagged, text, text, isLeaf_untagged, isLeaf_untagged, text_untagged l, text_untagged r]
  | .not t | .neg t => by
    rw [untagged, text, text, isLeaf_untagged, text_untagged t]
  | .call f args => by
    rw [untagged, text, text, argsText_untaggedAll args]

/-- The tags are not in the text of arguments. -/
lemma argsText_untaggedAll : ∀ ts : List Term, argsText (untaggedAll ts) = argsText ts
  | [] => rfl
  | [t] => text_untagged t
  | t :: u :: rest => by
    have ih := argsText_untaggedAll (u :: rest)
    rw [untaggedAll] at ih
    rw [untaggedAll, untaggedAll, argsText, argsText, text_untagged t, ih]

end

variable (env : Environment) (item : Item)

/-- The tags are not in what is told of a term that is no condition. -/
lemma message_notBoolean (t : Term) (v : Value) :
    (Unsupported.notBoolean t.untagged v).message = (Unsupported.notBoolean t v).message :=
  congrArg
    (fun text => "expression '" ++ text ++ "' evaluated to '" ++ v.text ++ "', not a boolean")
    (text_untagged t)

/-- The tags do not matter for the truth of a value. -/
lemma alike_truth (t : Term) (v : Value) : Alike (t.untagged.truth v) (t.truth v) := by
  unfold truth
  split
  next b => exact .refl _
  next => exact .unsupported (message_notBoolean t v)

/-- The errors that are tolerated are those of a path that leads nowhere. -/
lemma tolerateAbsent_error (e : QueryError) : tolerateAbsent (.error e)
    = if e.kind = .nameNotFound ∨ e.kind = .notAMap then .ok none else .error e := by
  cases e <;> rfl

/-- The same errors are tolerated in outcomes that are alike. -/
lemma alike_tolerateAbsent {x y : Except QueryError Value} (h : Alike x y) :
    Alike (tolerateAbsent x) (tolerateAbsent y) := by
  cases x with
  | ok v =>
    cases y with
    | ok w =>
      cases h
      rfl
    | error e => cases h
  | error e =>
    cases y with
    | ok w => cases h
    | error e' =>
      have htold := Alike.error_iff.1 h
      have hkind : e.kind = e'.kind := congrArg Prod.fst htold
      rw [tolerateAbsent_error, tolerateAbsent_error, hkind]
      split
      · rfl
      · exact Alike.error_iff.2 htold

/-- Comparisons of outcomes that are alike are alike. -/
lemma alike_compareResults {op : Comparison} {left left' right right' : Except QueryError Value}
    (hl : Alike left left') (hr : Alike right right') :
    Alike (compareResults op left right) (compareResults op left' right') := by
  refine (alike_tolerateAbsent hl).bind fun a => ?_
  cases a with
  | none => rfl
  | some a =>
    refine (alike_tolerateAbsent hr).bind fun b => ?_
    cases b <;> rfl

mutual

/-- Tags do not matter for the value of a term. -/
lemma alike_eval : ∀ t : Term, Alike (t.untagged.eval env item) (t.eval env item)
  | .value _ | .name _ | .is .. => rfl
  | .compare op l r _ => by
    rw [untagged, eval, eval]
    exact (alike_compareResults (alike_eval l) (alike_eval r)).bind fun _ => rfl
  | .and l r => by
    rw [untagged, eval, eval]
    refine (alike_eval l).bind fun v => (alike_truth l v).bind fun b => ?_
    cases b with
    | true => exact (alike_eval r).bind fun w => (alike_truth r w).bind fun _ => rfl
    | false => rfl
  | .or l r => by
    rw [untagged, eval, eval]
    refine (alike_eval l).bind fun v => (alike_truth l v).bind fun b => ?_
    cases b with
    | true => rfl
    | false => exact (alike_eval r).bind fun w => (alike_truth r w).bind fun _ => rfl
  | .not t => by
    rw [untagged, eval, eval]
    exact (alike_eval t).bind fun v => (alike_truth t v).bind fun _ => rfl
  | .arith op l r => by
    rw [untagged, eval, eval]
    exact (alike_eval l).bind fun _ => (alike_eval r).bind fun _ => rfl
  | .neg t => by
    rw [untagged, eval, eval]
    exact (alike_eval t).bind fun _ => rfl
  | .call f args => by
    rw [untagged, eval, eval]
    exact (alike_evalAll args).bind fun _ => rfl

/-- The tags do not matter for the values of arguments. -/
lemma alike_evalAll : ∀ ts : List Term,
    Alike (evalAll env item (untaggedAll ts)) (evalAll env item ts)
  | [] => rfl
  | t :: rest => by
    rw [untaggedAll, evalAll, evalAll]
    exact (alike_eval t).bind fun _ => (alike_evalAll rest).bind fun _ => rfl

end

section Lowering

variable {schema schema' : TableSchema}

/-- A term is negated in the same way without its tags. -/
lemma untagged_negated (t : Term) : t.negated.untagged = t.untagged.negated := by
  cases t with
  | is path test isNegated => cases test <;> rfl
  | _ => rfl

/-- The sign of a term is changed in the same way without its tags. -/
lemma untagged_negative (t : Term) : t.negative.map untagged = t.untagged.negative := by
  cases t with
  | value v =>
    rw [untagged, negative]
    split
    next => cases v.negate <;> rfl
    next => rfl
  | _ => rfl

/-- A comparison without a tag, turned around if it can be. -/
def untaggedComparison (op : Comparison) (left right : Term) : Term :=
  match left, right, op.exchanged? with
  | .value v, .name path, some turned => .compare turned (.name path) (.value v) false
  | _, _, _ => .compare op left right false

/-- A comparison without its tag is made of its operands without theirs, whatever the table is. -/
lemma untagged_comparison (schema : TableSchema) (op : Comparison) (t u : Term) :
    (comparison schema op t u).untagged = untaggedComparison op t.untagged u.untagged := by
  cases t with
  | value v =>
    cases u with
    | name path =>
      unfold comparison untaggedComparison
      cases op.exchanged? <;> rfl
    | _ => rfl
  | _ => rfl

/-- Computations that go on in the same way have the same outcome but for tags. -/
lemma map_bind_congr {α β γ δ : Type} {x y : Except QueryError α} {f : α → γ} {g : β → δ}
    {k k' : α → Except QueryError β} (h : x.map f = y.map f)
    (hk : ∀ a b, f a = f b → (k a).map g = (k' b).map g) :
    (x >>= k).map g = (y >>= k').map g := by
  cases x with
  | ok a =>
    cases y with
    | ok b => exact hk a b (Except.ok.inj h)
    | error e => cases h
  | error e =>
    cases y with
    | ok b => cases h
    | error e' =>
      cases h
      rfl

mutual

/-- Lowering depends on the table for tags alone. -/
lemma map_untagged_ofExpr (schema schema' : TableSchema) : ∀ e : Expr,
    (ofExpr schema e).map untagged = (ofExpr schema' e).map untagged
  | .literal _ | .name _ => rfl
  | .not e => by
    rw [ofExpr, ofExpr]
    refine map_bind_congr (map_untagged_ofExpr schema schema' e) fun t u htu => ?_
    change Except.ok _ = Except.ok _
    rw [untagged_negated, untagged_negated, htu]
  | .neg e => by
    rw [ofExpr, ofExpr]
    refine map_bind_congr (map_untagged_ofExpr schema schema' e) fun t u htu => ?_
    rw [untagged_negative, untagged_negative, htu]
  | .and l r | .or l r | .arith _ l r => by
    rw [ofExpr, ofExpr]
    refine map_bind_congr (map_untagged_ofExpr schema schema' l) fun t t' ht => ?_
    refine map_bind_congr (map_untagged_ofExpr schema schema' r) fun u u' hu => ?_
    change Except.ok _ = Except.ok _
    rw [untagged, untagged, ht, hu]
  | .compare op l r => by
    rw [ofExpr, ofExpr]
    refine map_bind_congr (map_untagged_ofExpr schema schema' l) fun t t' ht => ?_
    refine map_bind_congr (map_untagged_ofExpr schema schema' r) fun u u' hu => ?_
    change Except.ok _ = Except.ok _
    rw [untagged_comparison, untagged_comparison, ht, hu]
  | .is operand isNegated type => by
    rw [ofExpr, ofExpr]
    refine map_bind_congr (map_untagged_ofExpr schema schema' operand) fun t t' ht => ?_
    cases t with
    | name path =>
      cases t' with
      | name path' =>
        cases ht
        refine map_bind_congr (map_untagged_ofExpr schema schema' type) fun u u' hu => ?_
        cases u with
        | value v =>
          cases u' with
          | value w =>
            cases hu
            rfl
          | _ => cases hu
        | _ =>
          cases u' with
          | value w => cases hu
          | _ => rfl
      | _ => cases ht
    | _ =>
      cases t' with
      | name path' => cases ht
      | _ => rfl
  | .call function args => by
    rw [ofExpr, ofExpr]
    split
    next f _ =>
      refine map_bind_congr (map_untaggedAll_ofExprs schema schema' args) fun ts us h => ?_
      change Except.ok _ = Except.ok _
      rw [untagged, untagged, h]
    next => rfl

/-- Without their tags, arguments are lowered alike for every table. -/
lemma map_untaggedAll_ofExprs (schema schema' : TableSchema) : ∀ es : List Expr,
    (ofExprs schema es).map untaggedAll = (ofExprs schema' es).map untaggedAll
  | [] => rfl
  | e :: rest => by
    rw [ofExprs, ofExprs]
    refine map_bind_congr (map_untagged_ofExpr schema schema' e) fun t t' ht => ?_
    refine map_bind_congr (map_untaggedAll_ofExprs schema schema' rest) fun ts us h => ?_
    change Except.ok _ = Except.ok _
    rw [untaggedAll, untaggedAll, ht, h]

end

/-- What does not depend on tags is alike for terms that are the same without them. -/
lemma alike_bind {α : Type} {x y : Except QueryError Term} (h : x.map untagged = y.map untagged)
    {f : Term → Except QueryError α} (hf : ∀ t, Alike (f t.untagged) (f t)) :
    Alike (x >>= f) (y >>= f) := by
  cases x with
  | ok t =>
    cases y with
    | ok u =>
      have huntagged : t.untagged = u.untagged := Except.ok.inj h
      exact (huntagged ▸ (hf t).symm).trans (hf u)
    | error e => cases h
  | error e =>
    cases y with
    | ok u => cases h
    | error e' =>
      cases h
      rfl

end Lowering

end Term

end TableQuery
