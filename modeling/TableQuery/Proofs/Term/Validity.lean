import TableQuery.Proofs.Term.KeyTerms
import TableQuery.Proofs.Term.Lowers
import TableQuery.Proofs.Term.RoundTrip
import TableQuery.Proofs.Term.TypeNames

/-!
# What is lowered, and to what

Lowering looks at the calls and the type tests of an expression, at any depth. It succeeds exactly
if every call names a function that there is and every type test tests a path for a type by its
name, and then nothing is left in the term that it could still take in or turn around.
-/

namespace TableQuery

mutual

/-- An expression and all expressions in it. -/
def Expr.nodes : Expr → List Expr
  | .literal l => [.literal l]
  | .name path => [.name path]
  | .not a => .not a :: a.nodes
  | .neg a => .neg a :: a.nodes
  | .or a b => .or a b :: (a.nodes ++ b.nodes)
  | .and a b => .and a b :: (a.nodes ++ b.nodes)
  | .compare op a b => .compare op a b :: (a.nodes ++ b.nodes)
  | .arith op a b => .arith op a b :: (a.nodes ++ b.nodes)
  | .is a negated b => .is a negated b :: (a.nodes ++ b.nodes)
  | .call function args => .call function args :: Expr.nodesAll args

/-- All expressions in a list of expressions. -/
def Expr.nodesAll : List Expr → List Expr
  | [] => []
  | a :: rest => a.nodes ++ Expr.nodesAll rest

end

mutual

/-- A term and all terms in it. -/
def Term.nodes : Term → List Term
  | .value v => [.value v]
  | .name path => [.name path]
  | .compare op l r isKey => .compare op l r isKey :: (l.nodes ++ r.nodes)
  | .and l r => .and l r :: (l.nodes ++ r.nodes)
  | .or l r => .or l r :: (l.nodes ++ r.nodes)
  | .not t => .not t :: t.nodes
  | .is path test negated => [.is path test negated]
  | .arith op l r => .arith op l r :: (l.nodes ++ r.nodes)
  | .neg t => .neg t :: t.nodes
  | .call f args => .call f args :: Term.nodesAll args

/-- All terms in a list of terms. -/
def Term.nodesAll : List Term → List Term
  | [] => []
  | t :: rest => t.nodes ++ Term.nodesAll rest

end

/-- A call names a function that there is, and a type test tests a path for a type by its name. -/
def Expr.IsKnown : Expr → Prop
  | .call function _ => ∃ f : Builtin, f.name = function
  | .is operand _ type =>
    (∃ path, operand = .name path)
      ∧ ∃ typeName test, type = .literal (.string typeName) ∧ TypeTest.Named typeName test
  | _ => True

/-- An attribute is the partition key or the sort key of the table or of an index. -/
def TableSchema.HasKey (schema : TableSchema) (name : String) : Prop :=
  ∃ keys : KeySchema, (keys = schema.primary ∨ ∃ index ∈ schema.indexes, keys = index.keys)
    ∧ (keys.partitionKey.name = name ∨ ∃ key, keys.sortKey = some key ∧ key.name = name)

/-- The outermost operator of a term has taken in and turned around what it can, and a comparison is
tagged exactly if it compares a key attribute with a constant. -/
def Term.IsReduced (schema : TableSchema) : Term → Prop
  | .not t => ∀ path negated, t ≠ .is path .any negated
  | .is _ test negated => negated = true → test = .any
  | .neg t => (∀ n, t ≠ .value (.int n)) ∧ ∀ d, t ≠ .value (.decimal d)
  | .compare op l r isKey =>
    (∀ v path, l = .value v → r = .name path → op = .beginsWith)
      ∧ (isKey = true ↔ ∃ name v, l = .name ⟨[.key name]⟩ ∧ r = .value v ∧ schema.HasKey name)
  | _ => True

/-- A name is taken for a key if it is one of the table or of an index. -/
lemma TableSchema.isKey_iff {schema : TableSchema} {name : String} :
    schema.isKey name = true ↔ schema.HasKey name := by
  unfold isKey HasKey keySchemas KeySchema.hasKey
  simp only [List.any_cons, List.any_map, Bool.or_eq_true, beq_iff_eq, Option.any_eq_true,
    List.any_eq_true, Function.comp_apply]
  constructor
  · rintro (h | ⟨index, hindex, h⟩)
    · exact ⟨_, .inl rfl, h⟩
    · exact ⟨_, .inr ⟨index, hindex, rfl⟩, h⟩
  · rintro ⟨_, rfl | ⟨index, hindex, rfl⟩, h⟩
    · exact .inl h
    · exact .inr ⟨index, hindex, h⟩

namespace Builtin

/-- A name finds a function exactly if there is one of that name. -/
lemma exists_ofName?_iff {name : String} :
    (∃ f, ofName? name = some f) ↔ ∃ f : Builtin, f.name = name := by
  constructor
  · rintro ⟨f, hf⟩
    unfold ofName? at hf
    have hname := List.find?_some hf
    exact ⟨f, beq_iff_eq.1 hname⟩
  · rintro ⟨f, rfl⟩
    exact ⟨f, ofName?_name f⟩

end Builtin

namespace Term

variable {schema : TableSchema}

section Success

/-- Lowering gives the term that the rules give. -/
lemma ofExpr_of_lowers {e : Expr} {t : Term} (h : Lowers schema e t) :
    ofExpr schema e = .ok t := by
  induction h using Lowers.rec (motive_2 := fun es ts _ => ofExprs schema es = .ok ts) with
  | literal | name => rw [ofExpr]
  | not _ ih =>
    rw [ofExpr, ih]
    rfl
  | @number _ v _ _ hw ih =>
    rw [ofExpr, ih]
    change negative (.value v) = _
    rw [negative, if_pos (negate_eq_literal hw).1, hw]
    rfl
  | neg _ hv ih =>
    rw [ofExpr, ih]
    exact negative_eq_neg hv
  | and _ _ ihl ihr | or _ _ ihl ihr | compare _ _ ihl ihr | arith _ _ ihl ihr =>
    rw [ofExpr, ihl, ihr]
    rfl
  | is htest =>
    rw [ofExpr, ofExpr, ofExpr]
    dsimp only [bind, Except.bind, Literal.value]
    rw [htest]
    rfl
  | call hf _ ih =>
    rw [ofExpr, hf]
    dsimp only
    rw [ih]
    rfl
  | nil => rw [ofExprs]
  | cons _ _ ih ihs =>
    rw [ofExprs, ih, ihs]
    rfl

/-- The calls and the type tests of what is lowered are known. -/
lemma Lowers.isKnown {e : Expr} {t : Term} (h : Lowers schema e t) : ∀ n ∈ e.nodes, n.IsKnown := by
  induction h using Lowers.rec
    (motive_2 := fun es _ _ => ∀ n ∈ Expr.nodesAll es, n.IsKnown) with
  | literal | name => exact List.forall_mem_singleton.2 trivial
  | not _ ih | number _ _ ih | neg _ _ ih => exact List.forall_mem_cons.2 ⟨trivial, ih⟩
  | and _ _ ihl ihr | or _ _ ihl ihr | compare _ _ ihl ihr | arith _ _ ihl ihr =>
    exact List.forall_mem_cons.2 ⟨trivial, List.forall_mem_append.2 ⟨ihl, ihr⟩⟩
  | is htest =>
    have hnamed := TypeTest.ofName?_eq_some_iff.1 htest
    refine List.forall_mem_cons.2 ⟨⟨⟨_, rfl⟩, _, _, rfl, hnamed⟩, List.forall_mem_append.2 ?_⟩
    exact ⟨List.forall_mem_singleton.2 trivial, List.forall_mem_singleton.2 trivial⟩
  | call hf _ ih => exact List.forall_mem_cons.2 ⟨Builtin.exists_ofName?_iff.1 ⟨_, hf⟩, ih⟩
  | nil n hn => cases hn
  | cons _ _ ih ihs n hn => exact List.forall_mem_append.2 ⟨ih, ihs⟩ n hn

/-- Every number has a negation. -/
lemma exists_negate {v : Value} (h : v.decimal?.isSome = true) : ∃ w, v.negate = .ok w := by
  cases v with
  | int n =>
    rw [Value.negate]
    split <;> exact ⟨_, rfl⟩
  | decimal d => exact ⟨_, rfl⟩
  | _ => cases h

/-- Every term has a negation. -/
lemma Lowers.exists_neg {e : Expr} {t : Term} (h : Lowers schema e t) :
    ∃ u, Lowers schema (.neg e) u := by
  by_cases hnumber : ∀ v, t = .value v → v.decimal? = none
  · exact ⟨_, h.neg hnumber⟩
  · push Not at hnumber
    obtain ⟨v, rfl, hv⟩ := hnumber
    obtain ⟨w, hw⟩ := exists_negate (Option.isSome_iff_ne_none.2 hv)
    exact ⟨_, h.number hw⟩

/-- Two operands make an expression that can be lowered if both of them can. -/
lemma exists_pair {l r : Expr} {c : Expr → Expr → Expr} {f : Term → Term → Term}
    (rule : ∀ {t u}, Lowers schema l t → Lowers schema r u → Lowers schema (c l r) (f t u))
    (hl : ∃ t, Lowers schema l t) (hr : ∃ u, Lowers schema r u) : ∃ t, Lowers schema (c l r) t := by
  obtain ⟨t, ht⟩ := hl
  obtain ⟨u, hu⟩ := hr
  exact ⟨f t u, rule ht hu⟩

mutual

/-- What has only known calls and type tests is lowered. -/
lemma exists_lowers : ∀ e : Expr, (∀ n ∈ e.nodes, n.IsKnown) → ∃ t, Lowers schema e t
  | .literal l, _ => ⟨_, .literal⟩
  | .name path, _ => ⟨_, .name⟩
  | .not a, h => by
    obtain ⟨t, ht⟩ := exists_lowers a (List.forall_mem_cons.1 h).2
    exact ⟨_, ht.not⟩
  | .neg a, h => by
    obtain ⟨t, ht⟩ := exists_lowers a (List.forall_mem_cons.1 h).2
    exact ht.exists_neg
  | .and a b, h => by
    obtain ⟨ha, hb⟩ := List.forall_mem_append.1 (List.forall_mem_cons.1 h).2
    exact exists_pair .and (exists_lowers a ha) (exists_lowers b hb)
  | .or a b, h => by
    obtain ⟨ha, hb⟩ := List.forall_mem_append.1 (List.forall_mem_cons.1 h).2
    exact exists_pair .or (exists_lowers a ha) (exists_lowers b hb)
  | .compare op a b, h => by
    obtain ⟨ha, hb⟩ := List.forall_mem_append.1 (List.forall_mem_cons.1 h).2
    exact exists_pair .compare (exists_lowers a ha) (exists_lowers b hb)
  | .arith op a b, h => by
    obtain ⟨ha, hb⟩ := List.forall_mem_append.1 (List.forall_mem_cons.1 h).2
    exact exists_pair .arith (exists_lowers a ha) (exists_lowers b hb)
  | .is a negated b, h => by
    obtain ⟨⟨path, rfl⟩, typeName, test, rfl, hnamed⟩ := (List.forall_mem_cons.1 h).1
    exact ⟨_, .is (TypeTest.ofName?_eq_some_iff.2 hnamed)⟩
  | .call function args, h => by
    obtain ⟨f, hf⟩ := Builtin.exists_ofName?_iff.2 (List.forall_mem_cons.1 h).1
    obtain ⟨ts, hts⟩ := exists_lowersAll args (List.forall_mem_cons.1 h).2
    exact ⟨_, .call hf hts⟩

/-- Arguments can be lowered if all of their nodes are known. -/
lemma exists_lowersAll :
    ∀ es : List Expr, (∀ n ∈ Expr.nodesAll es, n.IsKnown) → ∃ ts, LowersAll schema es ts
  | [], _ => ⟨[], .nil⟩
  | e :: es, h => by
    obtain ⟨he, hes⟩ := List.forall_mem_append.1 h
    obtain ⟨t, ht⟩ := exists_lowers e he
    obtain ⟨ts, hts⟩ := exists_lowersAll es hes
    exact ⟨t :: ts, .cons ht hts⟩

end

end Success

section Reduced

/-- The key attributes of a table are the ones whose comparisons with constants are tagged. -/
lemma comparesKey_iff {l r : Term} :
    comparesKey schema l r = true
      ↔ ∃ name v, l = .name ⟨[.key name]⟩ ∧ r = .value v ∧ schema.HasKey name := by
  unfold comparesKey
  split
  next path v =>
    rw [Option.any_eq_true]
    constructor
    · rintro ⟨name, hname, hkey⟩
      rw [Path.attribute?_eq_some_iff] at hname
      exact ⟨name, v, congrArg Term.name hname, rfl, TableSchema.isKey_iff.1 hkey⟩
    · rintro ⟨name, _, hpath, -, hkey⟩
      cases hpath
      exact ⟨name, rfl, TableSchema.isKey_iff.2 hkey⟩
  next hne =>
    refine iff_of_false Bool.false_ne_true ?_
    rintro ⟨name, v, rfl, rfl, -⟩
    exact hne _ _ rfl rfl

/-- All parts of a term are reduced. -/
def AreReduced (schema : TableSchema) (ts : List Term) : Prop :=
  ∀ n ∈ ts, n.IsReduced schema

/-- Arguments are reduced if the first of them is and the others are. -/
lemma areReduced_cons {t : Term} {ts : List Term} (h : t.IsReduced schema)
    (hs : AreReduced schema ts) : AreReduced schema (t :: ts) :=
  List.forall_mem_cons.2 ⟨h, hs⟩

/-- Some arguments after others are reduced if both are. -/
lemma AreReduced.append {ts us : List Term} (h : AreReduced schema ts) (h' : AreReduced schema us) :
    AreReduced schema (ts ++ us) :=
  List.forall_mem_append.2 ⟨h, h'⟩

/-- A comparison is left with a constant before an attribute only if it cannot be turned around. -/
lemma areReduced_comparison (op : Comparison) {t u : Term} (ht : AreReduced schema t.nodes)
    (hu : AreReduced schema u.nodes) : AreReduced schema (comparison schema op t u).nodes := by
  unfold comparison
  split
  next => exact areReduced_cons ⟨nofun, comparesKey_iff⟩ (hu.append ht)
  next hne =>
    refine areReduced_cons ⟨?_, comparesKey_iff⟩ (ht.append hu)
    rintro v path rfl rfl
    cases op with
    | beginsWith => rfl
    | _ => exact (hne _ _ _ rfl rfl rfl).elim

/-- A test for a value takes its negation in. -/
lemma areReduced_negated {t : Term} (h : AreReduced schema t.nodes) :
    AreReduced schema t.negated.nodes := by
  unfold negated
  split
  next => exact areReduced_cons (fun _ => rfl) nofun
  next hne => exact areReduced_cons hne h

/-- A test of a type leaves its negation outside. -/
lemma areReduced_typeTest (path : Path) (test : TypeTest) (isNegated : Bool) :
    AreReduced schema (typeTest path test isNegated).nodes := by
  cases test with
  | any => exact areReduced_cons (fun _ => rfl) nofun
  | tag t =>
    have plain : AreReduced schema (Term.is path (.tag t) false).nodes :=
      areReduced_cons nofun nofun
    cases isNegated with
    | false => exact plain
    | true => exact areReduced_cons nofun plain

/-- All parts of a lowered term are reduced. -/
lemma Lowers.areReduced {e : Expr} {t : Term} (h : Lowers schema e t) :
    AreReduced schema t.nodes := by
  induction h using Lowers.rec (motive_2 := fun _ ts _ => AreReduced schema (nodesAll ts)) with
  | literal | name | number _ _ _ => exact areReduced_cons trivial nofun
  | not _ ih => exact areReduced_negated ih
  | neg _ hv ih =>
    refine areReduced_cons ⟨?_, ?_⟩ ih
    · rintro n rfl
      cases hv _ rfl
    · rintro d rfl
      cases hv _ rfl
  | and _ _ ihl ihr | or _ _ ihl ihr | arith _ _ ihl ihr =>
    exact areReduced_cons trivial (ihl.append ihr)
  | compare _ _ ihl ihr => exact areReduced_comparison _ ihl ihr
  | is _ => exact areReduced_typeTest _ _ _
  | call _ _ ih => exact areReduced_cons trivial ih
  | nil => exact nofun
  | cons _ _ ih ihs => exact ih.append ihs

end Reduced

/-- Lowering succeeds exactly if every call, at any depth, names a function that there is and every
type test tests a path for a type by its name. Then no part of the term is a negation of a test for
a value, a test of a type that carries a negation, a sign before a number, or a constant before an
attribute that could be turned around, and the tagged comparisons are those of a key attribute with
a constant. -/
theorem lowering_exact (schema : TableSchema) (e : Expr) :
    ((∃ t, ofExpr schema e = .ok t) ↔ ∀ n ∈ e.nodes, n.IsKnown)
      ∧ ∀ t, ofExpr schema e = .ok t → ∀ n ∈ t.nodes, n.IsReduced schema := by
  refine ⟨⟨?_, fun h => ?_⟩, fun t ht => (lowers_of_ofExpr e ht).areReduced⟩
  · rintro ⟨t, ht⟩
    exact (lowers_of_ofExpr e ht).isKnown
  · obtain ⟨t, ht⟩ := exists_lowers e h
    exact ⟨t, ofExpr_of_lowers ht⟩

/-- Two negations around one of a test for a value, and two signs before a number that is compared
with a key, among the arguments of a call. -/
theorem lowering_exact_nested :
    let schema : TableSchema := ⟨"t", ⟨⟨"id", .number⟩, none⟩, []⟩
    let a : Path := ⟨[.key "a"]⟩
    let id : Path := ⟨[.key "id"]⟩
    let e : Expr := .call "size"
      [.not (.not (.is (.name a) true (.literal (.string "Any")))),
        .compare .lt (.neg (.neg (.literal (.int 5)))) (.name id)]
    let t : Term := .call .size [.is a .any true, .compare .gt (.name id) (.value (.int 5)) true]
    ofExpr schema e = .ok t ∧ (∀ n ∈ e.nodes, n.IsKnown) ∧ ∀ n ∈ t.nodes, n.IsReduced schema := by
  intro schema a id e t
  have any : TypeTest.ofName? "Any" = some .any := by decide +kernel
  have size : Builtin.ofName? "size" = some .size := by decide
  have h : ofExpr schema e = .ok t := by
    simp only [e, ofExpr, ofExprs, Literal.value, bind, Except.bind, any, size]
    rfl
  obtain ⟨hvalid, hreduced⟩ := lowering_exact schema e
  exact ⟨h, hvalid.1 ⟨t, h⟩, hreduced t h⟩

end Term

end TableQuery
