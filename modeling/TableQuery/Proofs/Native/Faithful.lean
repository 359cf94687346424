import TableQuery.Proofs.Expr.WellFormed
import TableQuery.Proofs.Native.Builder
import TableQuery.Proofs.Plan.Selection
import TableQuery.Proofs.Term.KeyTerms

/-!
# The store takes conditions as they are meant

The texts that a plan gives to the store mean the terms and the keys that they are made of, and
nothing else: by the grammar of the store, with the placeholders looked up, there is one condition
that each of them can be read as, and it is the right one.
-/

namespace TableQuery

open Native

namespace Term

mutual

/-- Every path in a term begins with an attribute. -/
def Rooted : Term → Prop
  | .value _ => True
  | .name path | .is path _ _ => BeginsWithName path.steps
  | .compare _ l r _ | .and l r | .or l r | .arith _ l r => l.Rooted ∧ r.Rooted
  | .not t | .neg t => t.Rooted
  | .call _ args => AreRooted args

/-- Every path in the terms begins with an attribute. -/
def AreRooted : List Term → Prop
  | [] => True
  | t :: rest => t.Rooted ∧ AreRooted rest

end

variable {schema : TableSchema} {env : Environment}

/-- A negation has the paths of its operand. -/
lemma rooted_negated {t : Term} (h : t.Rooted) : t.negated.Rooted := by
  unfold negated
  split
  next => exact h
  next => exact h

/-- A comparison has the paths of its operands. -/
lemma rooted_comparison {op : Comparison} {t u : Term} (ht : t.Rooted) (hu : u.Rooted) :
    (comparison schema op t u).Rooted := by
  unfold comparison
  split
  next => exact ⟨hu, ht⟩
  next => exact ⟨ht, hu⟩

/-- A test for a type has the path that is tested. -/
lemma rooted_typeTest {path : Path} (h : BeginsWithName path.steps) (test : TypeTest)
    (isNegated : Bool) : (typeTest path test isNegated).Rooted := by
  cases test with
  | any => exact h
  | tag t => cases isNegated <;> exact h

/-- A well-formed path begins with an attribute. -/
lemma beginsWithName_of_wellFormed {path : Path} (h : path.WellFormed) :
    BeginsWithName path.steps := by
  obtain ⟨name, rest, hsteps, -⟩ := h
  exact ⟨name, rest, hsteps⟩

/-- The paths of a term are those of its expression. -/
lemma Lowers.rooted {e : Expr} {t : Term} (h : Lowers schema e t) (he : e.WellFormed) :
    t.Rooted := by
  induction h using Lowers.rec
    (motive_2 := fun es ts _ => Expr.AllWellFormed es → AreRooted ts) with
  | literal => trivial
  | name => exact beginsWithName_of_wellFormed he
  | not _ ih => exact rooted_negated (ih he)
  | number _ _ _ => trivial
  | neg _ _ ih => exact ih he
  | and _ _ ihl ihr | or _ _ ihl ihr | arith _ _ ihl ihr => exact ⟨ihl he.1, ihr he.2⟩
  | compare _ _ ihl ihr => exact rooted_comparison (ihl he.1) (ihr he.2)
  | is _ => exact rooted_typeTest (beginsWithName_of_wellFormed he.1) _ _
  | call _ _ ih => exact ih he.2
  | nil _ => trivial
  | cons _ _ ih ihs he => exact ⟨ih he.1, ihs he.2⟩

/-- The operand of the store has the path of its term. -/
lemma Rooted.storeOperand? {t : Term} (h : t.Rooted) {r : ResolvedOperand}
    (hr : t.storeOperand? env = some r) : r.Rooted := by
  unfold Term.storeOperand? at hr
  split at hr
  next =>
    obtain ⟨v, _, rfl⟩ := Option.map_eq_some_iff.1 hr
    trivial
  next =>
    split at hr
    next =>
      cases hr
      exact h
    next =>
      cases hr
      exact h.1
    next => cases hr

/-- The condition of the store has the paths of its term. -/
lemma Rooted.storeCondition? : ∀ {t : Term}, t.Rooted → ∀ {m : Resolved},
    t.storeCondition? env = some m → m.Rooted
  | .compare _ _ _ _, h, _, hm => by
    obtain ⟨a, ha, hm⟩ := Option.bind_eq_some_iff.1 hm
    obtain ⟨b, hb, hm⟩ := Option.bind_eq_some_iff.1 hm
    cases hm
    exact ⟨h.1.storeOperand? ha, h.2.storeOperand? hb⟩
  | .and _ _, h, _, hm | .or _ _, h, _, hm => by
    obtain ⟨a, ha, hm⟩ := Option.bind_eq_some_iff.1 hm
    obtain ⟨b, hb, hm⟩ := Option.bind_eq_some_iff.1 hm
    cases hm
    exact ⟨h.1.storeCondition? ha, h.2.storeCondition? hb⟩
  | .not t, h, _, hm => by
    obtain ⟨a, ha, rfl⟩ := Option.map_eq_some_iff.1 hm
    have ht : t.Rooted := h
    have hinner : a.Rooted := ht.storeCondition? ha
    exact hinner
  | .is path .any isNegated, h, _, hm => by
    cases hm
    cases isNegated <;> exact h
  | .is path (.tag _) _, h, _, hm => by
    cases hm
    exact h

/-- A term has no other paths exactly if the terms that it joins have none. -/
lemma Joins.rooted_iff {ts : List Term} {t : Term} (h : Joins ts t) :
    t.Rooted ↔ ∀ u ∈ ts, u.Rooted := by
  induction h with
  | single t => rw [List.forall_mem_singleton]
  | and _ _ ihl ihr =>
    rw [List.forall_mem_append, ← ihl, ← ihr]
    rfl

end Term

/-- The condition of the store that a condition on keys is. -/
def KeyCondition.storeCondition (c : KeyCondition) : Resolved :=
  let partition := .compare .eq (.path [.key c.partitionKey]) (.value c.partitionValue)
  match c.sortKey, c.sort with
  | some name, some bound =>
    .and partition (.compare bound.comparison (.path [.key name]) (.value bound.constant))
  | _, _ => partition

namespace Native

open Build

variable {env : Environment}

/-- The comparison of a key is read as one. -/
lemma yields_keyComparison (name : String) (op : Comparison) (v : Stored) :
    Yields (KeyCondition.comparison name op v) fun q c =>
      ReadsTest q.nameFields q.valueFields c.text.toList
        (.compare op (.path [.key name]) (.value v)) := by
  refine (yields_name name).bind fun key => (yields_value v).bind fun constant => yields_pure ?_
  intro q hv hname
  refine Placeholders.readsTest_compare (Placeholders.readsOperand ?_ ⟨name, [], rfl⟩)
    (Placeholders.readsOperand ?_ trivial)
  · rw [Placeholders.operand?, Placeholders.pathSteps?, hname]
    rfl
  · rw [Placeholders.operand?, hv]
    rfl

/-- The comparisons of a condition on keys mean that condition. -/
lemma yields_comparisons (c : KeyCondition) : Yields c.comparisons fun q comparisons =>
    Means q.nameFields q.valueFields (KeyCondition.textOf comparisons).toList c.storeCondition := by
  obtain ⟨index, partitionKey, partitionValue, sortKey, sort⟩ := c
  have alone : ∀ {names values} {partition : Condition} {m : Resolved},
      ReadsTest names values partition.text.toList m →
      Means names values (KeyCondition.textOf [partition]).toList m := fun h => means_of_test h
  refine (yields_keyComparison partitionKey .eq partitionValue).bind fun partition => ?_
  match sortKey, sort with
  | some name, some bound =>
    refine (yields_keyComparison name bound.comparison bound.constant).bind fun sorting =>
      yields_pure ?_
    intro q hsort hpartition
    have htext : (KeyCondition.textOf [partition, sorting]).toList
        = partition.text.toList ++ " AND ".toList ++ sorting.text.toList := by
      change (partition.text ++ " AND " ++ sorting.text).toList = _
      rw [String.toList_append, String.toList_append]
    rw [htext]
    exact (means_of_test hpartition).and (means_of_test hsort)
      (fun c hc => hpartition.noCapital c (mem_of_mem_outside hc))
      (fun c hc => hsort.noCapital c (mem_of_mem_outside hc))
  | some _, none | none, some _ | none, none =>
    exact yields_pure fun q hpartition => alone hpartition

/-- A filter that is built is that of its term. -/
lemma yields_filterCondition (filter : Option Term) :
    Yields (Plan.filterCondition env filter) fun q c =>
      Option.Rel (fun c t => ∃ m, t.storeCondition? env = some m ∧ q.condition? c = some m)
        c filter := by
  cases filter with
  | none => exact yields_pure fun _ => .none
  | some t => exact (yields_condition t).bind fun c => yields_pure fun q h => .some h

/-- The comparisons of a condition on keys and a filter that are built one after the other are both
meant. -/
lemma yields_parts (key : KeyCondition) (filter : Option Term) :
    Yields (do
      let comparisons ← key.comparisons
      return (comparisons, ← Plan.filterCondition env filter)) fun q parts =>
        Means q.nameFields q.valueFields (KeyCondition.textOf parts.1).toList key.storeCondition
          ∧ Option.Rel (fun c t => ∃ m, t.storeCondition? env = some m ∧ q.condition? c = some m)
            parts.2 filter := by
  refine (yields_comparisons key).bind fun comparisons =>
    (yields_filterCondition filter).bind fun c => yields_pure ?_
  exact fun q hfilter hkey => ⟨hkey, hfilter⟩

/-- What a plan builds has what is built, by the placeholders that the plan gives out in all. -/
lemma Build.Yields.of_build {α : Type} {b : Build α} {P : Placeholders → α → Prop}
    (hb : Yields b P) {a : α} {p : Placeholders} (h : Plan.build b = .ok (a, p)) : P p a := by
  unfold Plan.build at h
  split at h
  next hrun =>
    cases h
    exact (hb _ _ _ hrun).2 _ (Placeholders.le_refl _)
  next => cases h

/-- A text in a query means a condition, and nothing else. -/
def Expression.Denotes (n : Expression) (text : String) (m : Resolved) : Prop :=
  Means n.names n.values text.toList m

end Native

namespace Plan

open Native.Build

variable {env : Environment} {schema : TableSchema}

/-- The terms that a plan does not use have no other paths. -/
lemma rooted_residual? {t u : Term} (h : t.Rooted) {used : List Nat}
    (hu : residual? t.conjuncts.zipIdx used = some u) : u.Rooted := by
  rw [residual?_eq] at hu
  refine (Term.joins_of_conjunction? hu).rooted_iff.2 fun v hv => ?_
  obtain ⟨i, hi, -⟩ := mem_unused_iff.1 hv
  exact (Term.joins_conjuncts t).rooted_iff.1 h v (List.mem_of_getElem? hi)

/-- The texts that a plan gives to the store mean its condition on keys and its filter. -/
lemma denotes_of_ofTerm {t : Term} (ht : t.Rooted) {p : Plan} (h : ofTerm env schema t = .ok p) :
    Option.Rel (fun text key => p.native.Denotes text key.storeCondition)
        p.native.keyCondition p.keyCondition
      ∧ Option.Rel (fun text u => ∃ m, u.storeCondition? env = some m ∧ p.native.Denotes text m)
        p.native.filter p.filter := by
  -- a scan has the whole term for its filter, a query the conjuncts that its keys leave
  unfold ofTerm at h
  dsimp only at h
  split at h
  next =>
    obtain ⟨⟨c, q⟩, hbuild, h⟩ := bind_eq_ok_iff.1 h
    cases h
    obtain ⟨m, hm, hc⟩ := (yields_condition t).of_build hbuild
    exact ⟨.none, .some ⟨m, hm, Placeholders.means_text hc (ht.storeCondition? hm)⟩⟩
  next key used _ =>
    obtain ⟨⟨⟨comparisons, condition⟩, q⟩, hbuild, h⟩ := bind_eq_ok_iff.1 h
    cases h
    obtain ⟨hkey, hfilter⟩ := (yields_parts key (residual? _ used)).of_build hbuild
    refine ⟨.some hkey, ?_⟩
    dsimp only at hfilter ⊢
    generalize hr : residual? t.conjuncts.zipIdx used = filter at hfilter
    cases hfilter with
    | none => exact .none
    | some hc =>
      obtain ⟨m, hm, hc⟩ := hc
      have hroot := (rooted_residual? ht hr).storeCondition? hm
      exact .some ⟨m, hm, Placeholders.means_text hc hroot⟩

end Plan

/-- What is rendered for the store is faithful. The text of a condition that a term of a parsed
expression is built into means the condition that the term is, with its constants evaluated, and
nothing else, by the placeholders that are given out then and by all later ones. So do the texts of
a plan, by what its placeholders stand for in the end. -/
theorem Native.rendering_faithful {env : Environment} {schema : TableSchema} {text : String}
    {e : Expr} {t : Term} (hparse : Expr.parse text = .ok e)
    (hlower : Term.ofExpr schema e = .ok t) :
    (∀ p c p', Native.condition env t p = .ok c p' →
      ∃ m, t.storeCondition? env = some m
        ∧ ∀ q, p' ≤ q → Means q.nameFields q.valueFields c.text.toList m)
    ∧ ∀ plan, Plan.ofTerm env schema t = .ok plan →
      Option.Rel (fun text key => plan.native.Denotes text key.storeCondition)
          plan.native.keyCondition plan.keyCondition
        ∧ Option.Rel
          (fun text u => ∃ m, u.storeCondition? env = some m ∧ plan.native.Denotes text m)
          plan.native.filter plan.filter := by
  obtain ⟨ts, hts, he⟩ := Expr.parse_eq_ok_iff.1 hparse
  have hroot : t.Rooted :=
    (Term.lowers_of_ofExpr e hlower).rooted (he.wellFormed (wellFormed_of_lexes hts))
  refine ⟨fun p c p' hc => ?_, fun plan => Plan.denotes_of_ofTerm hroot⟩
  -- the condition of the term is the same at whatever placeholders it is looked up by
  obtain ⟨-, hbuilt⟩ := yields_condition t p c p' hc
  obtain ⟨m, hm, -⟩ := hbuilt p' (Placeholders.le_refl p')
  refine ⟨m, hm, fun q hq => ?_⟩
  obtain ⟨m', hm', hc'⟩ := hbuilt q hq
  cases hm.symm.trans hm'
  exact Placeholders.means_text hc' (hroot.storeCondition? hm)

/-- A condition on both keys, and a filter with a negated disjunction in it. -/
theorem Native.rendering_faithful_keys :
    let schema : TableSchema := ⟨"t", ⟨⟨"a", .string⟩, some ⟨"n", .number⟩⟩, []⟩
    let text := "a = \"k\" and n < 3 and not (size(b) > 1 + 1 or a.c is \"N\")"
    let key : Resolved := .and (.compare .eq (.path [.key "a"]) (.value (.string "k")))
      (.compare .lt (.path [.key "n"]) (.value (.number "3")))
    let filter : Resolved := .not (.or (.compare .gt (.size [.key "b"]) (.value (.number "2")))
      (.type [.key "a", .key "c"] (.string "N")))
    ∃ e t plan, Expr.parse text = .ok e ∧ Term.ofExpr schema e = .ok t
      ∧ Plan.ofTerm {} schema t = .ok plan
      ∧ plan.native.Denotes "#n0 = :v0 AND #n1 < :v1" key
      ∧ plan.native.Denotes "NOT ((size(#n2) > :v2) OR (attribute_type(#n0.#n3, :v3)))" filter := by
  intro schema text key filter
  have h : ((Expr.parse text).toOption.bind fun e => (Term.ofExpr schema e).toOption.bind fun t =>
      (Plan.ofTerm {} schema t).toOption).any (fun plan =>
        plan.native.keyCondition = some "#n0 = :v0 AND #n1 < :v1"
        ∧ plan.native.filter = some "NOT ((size(#n2) > :v2) OR (attribute_type(#n0.#n3, :v3)))"
        ∧ plan.keyCondition.map KeyCondition.storeCondition = some key
        ∧ plan.filter.bind (Term.storeCondition? {}) = some filter) = true := by
    decide +kernel
  cases he : Expr.parse text with
  | error err =>
    rw [he] at h
    cases h
  | ok e =>
  cases ht : Term.ofExpr schema e with
  | error err =>
    rw [he, Except.toOption, Option.bind_some, ht] at h
    cases h
  | ok t =>
  cases hp : Plan.ofTerm {} schema t with
  | error err =>
    rw [he, Except.toOption, Option.bind_some, ht, Except.toOption, Option.bind_some, hp] at h
    cases h
  | ok plan =>
  rw [he, Except.toOption, Option.bind_some, ht, Except.toOption, Option.bind_some, hp] at h
  obtain ⟨hkeyText, hfilterText, hkey, hfilter⟩ := of_decide_eq_true h
  obtain ⟨hk, hf⟩ := (Native.rendering_faithful he ht).2 plan hp
  obtain ⟨c, hc, hmeant⟩ := Option.map_eq_some_iff.1 hkey
  obtain ⟨u, hu, hmeant'⟩ := Option.bind_eq_some_iff.1 hfilter
  rw [hkeyText, hc] at hk
  rw [hfilterText, hu] at hf
  cases hk with
  | some hk =>
    cases hf with
    | some hf =>
      obtain ⟨m, hm, hf⟩ := hf
      cases hmeant'.symm.trans hm
      exact ⟨e, t, plan, rfl, ht, hp, hmeant ▸ hk, hf⟩

end TableQuery
