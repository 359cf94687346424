import Mathlib.Data.Nat.Bits
import TableQuery.Proofs.Term.Holds
import TableQuery.Proofs.Term.Validity
import TableQuery.Proofs.Value.Conversion

/-!
# Type tests

A type test of a path tells of the stored value that the path leads to, although it is the converted
value that is looked at. Every negation turns its answer around, whether lowering takes it into the
test or leaves it outside, and keeps its errors.
-/

namespace TableQuery

/-- A stored value is of the type that is tested for. -/
def TypeTest.admits : TypeTest → Stored → Bool
  | .any, _ => true
  | .tag t, v => v.tag == t

/-- An expression behind a number of negations. -/
def Expr.nots : Nat → Expr → Expr
  | 0, e => e
  | n + 1, e => .not (nots n e)

namespace Term

variable {schema : TableSchema} {env : Environment} {item : Item}

/-- The answer of a type test without a negation. -/
def answer (item : Item) (path : Path) (test : TypeTest) : Except QueryError Bool :=
  (tolerateAbsent (item.value path)).map (passes test false)

/-- A type test answers for the stored value that its path leads to. -/
lemma answer_of_ofStored {path : Path} {v : Stored} {w : Value} (test : TypeTest)
    (hv : item.get path = .ok v) (hw : Value.ofStored v = .ok w) :
    answer item path test = .ok (test.admits v) := by
  have hread : Value.read v = .ok w := by
    unfold Value.read
    rw [hw]
    rfl
  rw [answer, tolerateAbsent_value, hv]
  dsimp only
  rw [hread]
  cases test with
  | any => rfl
  | tag t => exact congrArg (fun tag => Except.ok (tag == t)) (Value.tag_of_ofStored hw)

/-- A path that leads nowhere has a value of no type. -/
lemma answer_of_absent {path : Path} {e : QueryError} (test : TypeTest)
    (h : item.get path = .error e) : answer item path test = .ok false := by
  rw [answer, tolerateAbsent_value, h]
  cases test <;> rfl

/-- A stored value that is not converted fails every test. -/
lemma answer_of_conversion {path : Path} {v : Stored} {cause : ConversionError} (test : TypeTest)
    (hv : item.get path = .ok v) (hcause : Value.ofStored v = .error cause) :
    answer item path test = .error (.unsupported (.conversion cause)) := by
  have hread : Value.read v = .error (.unsupported (.conversion cause)) := by
    unfold Value.read
    rw [hcause]
    rfl
  rw [answer, tolerateAbsent_value, hv]
  dsimp only
  rw [hread]
  rfl

/-- The value of a test is what it says of the value that may be under its path. -/
lemma eval_is (path : Path) (test : TypeTest) (negated : Bool) :
    (Term.is path test negated).eval env item
      = ((tolerateAbsent (item.value path)).map (passes test negated)).map .bool := by
  rw [eval]
  cases tolerateAbsent (item.value path) <;> rfl

/-- A negation turns the answer of a term around. -/
lemma eval_negated {t : Term} {x : Except QueryError Bool}
    (h : t.eval env item = x.map .bool) : t.negated.eval env item = (x.map (! ·)).map .bool := by
  have wrapped : (Term.not t).eval env item = (x.map (! ·)).map .bool := by
    rw [eval, h]
    cases x <;> rfl
  rw [← wrapped]
  unfold negated
  split
  next path flag =>
    rw [eval_is, eval, eval_is]
    cases tolerateAbsent (item.value path) with
    | error e => rfl
    | ok found => cases found <;> cases flag <;> rfl
  next => rfl

/-- The value of a lowered type test is its answer, turned around by a negation. -/
lemma eval_typeTest (path : Path) (test : TypeTest) (isNegated : Bool) :
    (typeTest path test isNegated).eval env item
      = ((answer item path test).map (isNegated ^^ ·)).map .bool := by
  have plain : (Term.is path test false).eval env item = (answer item path test).map .bool :=
    eval_is path test false
  have lowered : typeTest path test isNegated
      = if isNegated then (Term.is path test false).negated else .is path test false := by
    cases test <;> cases isNegated <;> rfl
  rw [lowered]
  cases isNegated with
  | false =>
    rw [if_neg Bool.false_ne_true, plain]
    cases answer item path test <;> simp [Except.map]
  | true =>
    rw [if_pos rfl, eval_negated plain]
    cases answer item path test <;> simp [Except.map]

/-- An odd number of negations turns the answer of a term around. -/
lemma lowers_nots {e : Expr} {t : Term} {x : Except QueryError Bool} (h : Lowers schema e t)
    (hx : t.eval env item = x.map .bool) (n : Nat) :
    ∃ u, Lowers schema (e.nots n) u ∧ u.eval env item = (x.map (n.bodd ^^ ·)).map .bool := by
  induction n with
  | zero =>
    refine ⟨t, h, hx.trans ?_⟩
    cases x <;> simp [Except.map]
  | succ n ih =>
    obtain ⟨u, hu, heval⟩ := ih
    refine ⟨u.negated, hu.not, (eval_negated heval).trans ?_⟩
    cases x <;> simp [Except.map, Nat.bodd_succ]

/-- A test of a path for a type, named in any letter case, and with any number of negations before
it: where the path leads to a stored value that can be converted, it tells the type of the stored
value; where the path leads nowhere, it is false; and where the stored value cannot be converted, it
fails with the error of the conversion. Each negation turns what it tells around, and no error. -/
theorem typeTest_exact (schema : TableSchema) (env : Environment) (item : Item) (path : Path)
    {name : String} {test : TypeTest} (hname : TypeTest.Named name test) (negated : Bool)
    (n : Nat) :
    ∃ t, ofExpr schema (.nots n (.is (.name path) negated (.literal (.string name)))) = .ok t
      ∧ (∀ v w, item.get path = .ok v → Value.ofStored v = .ok w →
        t.eval env item = .ok (.bool (n.bodd ^^ (negated ^^ test.admits v))))
      ∧ (∀ e, item.get path = .error e →
        t.eval env item = .ok (.bool (n.bodd ^^ (negated ^^ false))))
      ∧ ∀ v cause, item.get path = .ok v → Value.ofStored v = .error cause →
        t.eval env item = .error (.unsupported (.conversion cause)) := by
  have htest : Lowers schema (.is (.name path) negated (.literal (.string name)))
      (typeTest path test negated) := .is (TypeTest.ofName?_eq_some_iff.2 hname)
  have heval : (typeTest path test negated).eval env item
      = ((answer item path test).map (negated ^^ ·)).map .bool := eval_typeTest path test negated
  obtain ⟨t, ht, heval⟩ := lowers_nots htest heval n
  refine ⟨t, ofExpr_of_lowers ht, fun v w hv hw => ?_, fun e he => ?_, fun v cause hv hcause => ?_⟩
  · rw [heval, answer_of_ofStored test hv hw]
    rfl
  · rw [heval, answer_of_absent test he]
    rfl
  · rw [heval, answer_of_conversion test hv hcause]
    rfl

/-- Three negations of a negated test for a set, which stands under a key of a map. -/
theorem typeTest_exact_negated :
    let item : Item := [("a", .map [("b", .numbers ["1"])])]
    let path : Path := ⟨[.key "a", .key "b"]⟩
    let e : Expr := .nots 3 (.is (.name path) true (.literal (.string "Ns")))
    TypeTest.Named "Ns" (.tag .numbers) ∧ item.get path = .ok (.numbers ["1"])
      ∧ ∃ t, ofExpr .detached e = .ok t ∧ t.eval {} item = .ok (.bool true) := by
  intro item path e
  have hname : TypeTest.Named "Ns" (.tag .numbers) :=
    ⟨"NS", by decide, .cons (.inl rfl) (.cons (.inr rfl) .nil)⟩
  have hget : item.get path = .ok (.numbers ["1"]) := by rfl
  obtain ⟨t, ht, hpresent, -⟩ := typeTest_exact .detached {} item path hname true 3
  exact ⟨hname, hget, t, ht, hpresent _ _ hget rfl⟩

end Term

end TableQuery
