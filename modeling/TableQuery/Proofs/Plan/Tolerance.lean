import TableQuery.Proofs.Plan.Outcome
import TableQuery.Proofs.Plan.Soundness
import TableQuery.Proofs.Term.Attributes

/-!
# Plans tolerate all items

A term that has a condition of the store is true or false of an item, or fails because of a value in
it: a value that cannot be compared, one that has no size, or a stored value that has none at all.
All else that can go wrong has gone wrong before there is a plan, or is absence, which comparisons
and type tests take for false.
-/

namespace TableQuery

/-- The errors that the values of an item can be the cause of. -/
inductive QueryError.OfItem : QueryError → Prop where
  | notComparable {a b} :
    OfItem (.notComparable a b)
  | conversion {cause} :
    OfItem (.unsupported (.conversion cause))
  | size {v} :
    OfItem (.unsupported (.size v))

/-- An outcome that is an error only because of the values of an item. -/
def Tolerant {α : Type} (x : Except QueryError α) : Prop :=
  ∀ e, x = .error e → e.OfItem

section Outcomes

variable {α β : Type}

/-- A computation that succeeds has no error. -/
lemma tolerant_ok (a : α) : Tolerant (.ok a) :=
  nofun

/-- An error that the values of an item cause. -/
lemma tolerant_error {e : QueryError} (h : e.OfItem) : Tolerant (.error e : Except QueryError α) := by
  rintro _ ⟨⟩
  exact h

/-- If the values of an item are the only cause of errors in two steps, then also in both together.
-/
lemma Tolerant.bind {x : Except QueryError α} {f : α → Except QueryError β} (hx : Tolerant x)
    (hf : ∀ a, Tolerant (f a)) : Tolerant (x >>= f) := by
  intro e he
  rcases bind_eq_error_iff.1 he with he | ⟨a, -, he⟩
  · exact hx e he
  · exact hf a e he

end Outcomes

section Absence

/-- What is done with the value of a path takes absence for no value. -/
lemma tolerant_tolerateAbsent_bind (item : Item) (path : Path) {f : Value → Except QueryError Value}
    (hf : ∀ v, Tolerant (tolerateAbsent (f v))) :
    Tolerant (tolerateAbsent (item.value path >>= f)) := by
  unfold Item.value
  cases hget : item.get path with
  | error e =>
    have hnone := tolerateAbsent_absent (Stored.get_error hget)
    change Tolerant (tolerateAbsent (.error e))
    rw [hnone]
    exact tolerant_ok none
  | ok a =>
    change Tolerant (tolerateAbsent (Value.read a >>= f))
    unfold Value.read
    cases Value.ofStored a with
    | error cause => exact tolerant_error .conversion
    | ok v => exact hf v

/-- Only the values of an item are the cause of errors where a path is read. -/
lemma tolerant_tolerateAbsent_value (item : Item) (path : Path) :
    Tolerant (tolerateAbsent (item.value path)) := by
  have h := tolerant_tolerateAbsent_bind item path (f := .ok) fun v => tolerant_ok (some v)
  rwa [show (item.value path >>= .ok) = item.value path from bind_pure _] at h

/-- The size of a value is a number, or the value has none. -/
lemma tolerant_tolerateAbsent_size (env : Environment) (v : Value) :
    Tolerant (tolerateAbsent (Builtin.apply env .size [v])) := by
  change Tolerant (tolerateAbsent (do return .int (Int64.ofNat (← v.size))))
  unfold Value.size
  split
  · exact tolerant_ok _
  · exact tolerant_ok _
  · exact tolerant_ok _
  · exact tolerant_error .size

end Absence

namespace Term

variable {env : Environment}

/-- Only the values of an item are the cause of errors in a comparison if that is so in its
operands. -/
lemma tolerant_compareResults {op : Comparison} {left right : Except QueryError Value}
    (hl : Tolerant (tolerateAbsent left)) (hr : Tolerant (tolerateAbsent right)) :
    Tolerant (compareResults op left right) := by
  refine hl.bind fun a => ?_
  cases a with
  | none => exact tolerant_ok false
  | some a =>
    refine hr.bind fun b => ?_
    cases b with
    | none => exact tolerant_ok false
    | some b =>
      change Tolerant (a.compare op b)
      unfold Value.compare
      split
      · exact tolerant_ok _
      · exact tolerant_error .notComparable

/-- An operand of the store fails on an item only by absence or because of its values. -/
lemma tolerant_operand {t : Term} (h : t.checkOperand env = .ok ()) (item : Item) :
    Tolerant (tolerateAbsent (t.eval env item)) := by
  unfold checkOperand at h
  split at h
  next hconstant =>
    -- a constant has been evaluated before, and has the same value now
    obtain ⟨v, hv, -⟩ := map_eq_ok_iff.1 h
    rw [eval_eq_of_isConstant hconstant item [], hv]
    exact tolerant_ok (some v)
  next =>
    split at h
    next hstore =>
      unfold isStoreOperand at hstore
      split at hstore
      next path _ => exact tolerant_tolerateAbsent_value item path
      next path _ =>
        have heval : (Term.call .size [.name path]).eval env item
            = item.value path >>= fun v => Builtin.apply env .size [v] := by
          rw [eval, evalAll, evalAll, eval]
          cases item.value path <;> rfl
        rw [heval]
        exact tolerant_tolerateAbsent_bind item path (tolerant_tolerateAbsent_size env)
      next => cases hstore
    next => cases h

/-- A term that has a condition of the store holds or not of every item, unless it fails because of
the values of the item. -/
lemma tolerant_holds {item : Item} : ∀ {t : Term}, t.check env = .ok () →
    Tolerant (t.holds env item)
  | .compare op l r isKey, h => by
    obtain ⟨_, hl, hr⟩ := bind_eq_ok_iff.1 h
    rw [holds_compare]
    exact tolerant_compareResults (tolerant_operand hl item) (tolerant_operand hr item)
  | .and l r, h => by
    obtain ⟨_, hl, hr⟩ := bind_eq_ok_iff.1 h
    rw [holds_and]
    refine (tolerant_holds hl).bind fun b => ?_
    cases b with
    | false => exact tolerant_ok false
    | true => exact tolerant_holds hr
  | .or l r, h => by
    obtain ⟨_, hl, hr⟩ := bind_eq_ok_iff.1 h
    rw [holds_or]
    refine (tolerant_holds hl).bind fun b => ?_
    cases b with
    | false => exact tolerant_holds hr
    | true => exact tolerant_ok true
  | .not t, h => by
    have ht : t.check env = .ok () := h
    rw [holds_not]
    exact (tolerant_holds ht).bind fun b => tolerant_ok (!b)
  | .is path test isNegated, _ => by
    rw [holds_is]
    exact (tolerant_tolerateAbsent_value item path).bind fun found => tolerant_ok _

end Term

namespace Plan

variable {schema : TableSchema} {env : Environment}

/-- A plan that an expression compiles to and the whole expression are true or false of every item,
in the environment in which it was compiled, unless they fail because of the values of the item: two
of them cannot be compared, one has no size, or one is stored as what is no value. -/
theorem compile_tolerant {text : String} {p : Plan} (h : compile env schema text = .ok p) :
    ∃ e t, Expr.parse text = .ok e ∧ Term.ofExpr schema e = .ok t
      ∧ ∀ item, Tolerant (p.matches? env item) ∧ Tolerant (t.holds env item) := by
  obtain ⟨e, t, hparse, hlower, hplan⟩ := compile_eq_ok_iff.1 h
  refine ⟨e, t, hparse, hlower, fun item => ?_⟩
  have hcheck : t.check env = .ok () := by
    have houtcome : outcome (ofTerm env schema t) = t.check env := outcome_ofTerm t
    rw [← houtcome, hplan]
    rfl
  have hholds : Tolerant (t.holds env item) := Term.tolerant_holds hcheck
  refine ⟨?_, hholds⟩
  -- the plan gives the result of the whole term, or rejects an item on which that fails
  rcases matches?_of_ofTerm hlower hplan env item with hmatches | ⟨-, hmatches⟩
  · rw [hmatches]
    exact hholds
  · rw [hmatches]
    exact tolerant_ok false

/-- Paths that lead nowhere are no error, but a number that is asked for its size is one. -/
theorem compile_tolerant_size :
    let schema : TableSchema := ⟨"t", ⟨⟨"a", .string⟩, none⟩, []⟩
    let text := "a = \"k\" and not (b.c < 2 or size(d) > 1)"
    let absent : Item := [("a", .string "k")]
    let unsized : Item := [("a", .string "k"), ("d", .number "1")]
    ∃ p, compile {} schema text = .ok p ∧ (p.matches? {} absent).toOption = some true
      ∧ ∃ err, p.matches? {} unsized = .error err ∧ err.OfItem := by
  intro schema text absent unsized
  have h : (compile {} schema text).toOption.any (fun p =>
      (p.matches? {} absent).toOption = some true ∧ (p.matches? {} unsized).toOption = none) = true
    := by decide +kernel
  obtain ⟨p, hp, h⟩ := exists_of_any_toOption h
  obtain ⟨habsent, hunsized⟩ := of_decide_eq_true h
  obtain ⟨_, _, -, -, htolerant⟩ := compile_tolerant hp
  cases hmatches : p.matches? {} unsized with
  | ok b =>
    rw [hmatches] at hunsized
    cases hunsized
  | error err => exact ⟨p, hp, habsent, err, hmatches, (htolerant unsized).1 err hmatches⟩

end Plan

end TableQuery
