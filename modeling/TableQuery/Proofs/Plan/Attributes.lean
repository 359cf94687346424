import TableQuery.Proofs.Native.Faithful
import TableQuery.Proofs.Plan.Selection
import TableQuery.Proofs.Term.Attributes

/-!
# The attributes of a plan

What is built gives a placeholder to every attribute that it looks at: each part of a plan declares
the attributes that the part starts its paths at, so the plan declares those of the whole expression
that it is made from. Nothing else in an item can be told from its result.
-/

namespace TableQuery

/-- The fields of an item that have one of some names. -/
def Item.project (names : List String) (item : Item) : Item :=
  item.filter fun field => names.contains field.1

/-- An item agrees with its projection on the names that are kept. -/
lemma Item.agreeOn_project (names : List String) (item : Item) :
    (item.project names).AgreeOn names item :=
  fun _ hname => Fields.get?_filter (List.contains_iff_mem.2 hname) item

/-- The attributes that a plan declares to the store. -/
def Plan.declared (p : Plan) : List String :=
  p.native.names.map Prod.snd

namespace Term

/-- The attributes of a term are those of the terms that it joins. -/
lemma Joins.attributes_eq {ts : List Term} {t : Term} (h : Joins ts t) :
    t.attributes = ts.flatMap attributes := by
  induction h with
  | single t => rw [List.flatMap_singleton]
  | and _ _ ihl ihr => rw [attributes, ihl, ihr, List.flatMap_append]

/-- Terms that are joined have the attributes of all. -/
lemma attributes_conjunction? (ts : List Term) :
    (conjunction? ts).elim [] attributes = ts.flatMap attributes :=
  elim_conjunction? (F := List.flatMap attributes) Joins.attributes_eq ts

end Term

namespace Native

open Build

namespace Placeholders

variable {p : Placeholders}

/-- The keys in a path have placeholders if it is written with them. -/
lemma mem_names_of_pathSteps? {numbered : List Step} {steps : List TableQuery.Step}
    (h : p.pathSteps? numbered = some steps) {k : String} (hk : .key k ∈ steps) : k ∈ p.names := by
  induction numbered generalizing steps with
  | nil =>
    cases h
    cases hk
  | cons step rest ih =>
    cases step with
    | name n =>
      obtain ⟨name, hname, h⟩ := Option.bind_eq_some_iff.1 h
      obtain ⟨more, hmore, h⟩ := Option.bind_eq_some_iff.1 h
      cases h
      rcases List.mem_cons.1 hk with hk | hk
      · cases hk
        exact List.mem_of_getElem? hname
      · exact ih hmore hk
    | index i =>
      obtain ⟨more, hmore, h⟩ := Option.bind_eq_some_iff.1 h
      cases h
      rcases List.mem_cons.1 hk with hk | hk
      · cases hk
      · exact ih hmore hk

/-- The attribute that a path starts at has a placeholder if the path is written with them. -/
lemma root_subset_names {path : Path} (hpath : BeginsWithName path.steps) {numbered : List Step}
    (h : p.pathSteps? numbered = some path.steps) : [path.root] ⊆ p.names := by
  obtain ⟨name, rest, hsteps⟩ := hpath
  have hroot : path.root = name := by rw [Path.root, hsteps]
  refine List.cons_subset.2 ⟨mem_names_of_pathSteps? h ?_, List.nil_subset _⟩
  rw [hroot, hsteps]
  exact List.mem_cons_self

/-- Every name that has a placeholder is declared with it. -/
lemma names_subset_nameFields (p : Placeholders) : p.names ⊆ p.nameFields.map Prod.snd := by
  intro name hname
  obtain ⟨n, hn⟩ := List.mem_iff_getElem?.1 hname
  rw [← get?_nameFields] at hn
  exact List.mem_map_of_mem (Fields.mem_of_get? hn)

end Placeholders

variable {env : Environment}

/-- The names in an operand have numbers once it is built. -/
lemma yields_names_operand {t : Term} (h : t.Rooted) :
    Yields (operand env t) fun q _ => t.attributes ⊆ q.names := by
  unfold operand
  split
  next hconstant =>
    rw [(Term.isConstant_iff t).1 hconstant]
    exact yields_lift.bind fun v => (yields_value _).bind fun n =>
      yields_pure fun _ _ _ => List.nil_subset _
  next =>
    split
    next path _ =>
      exact (yields_steps path.steps).bind fun steps => yields_pure fun q hsteps =>
        Placeholders.root_subset_names h hsteps
    next path _ =>
      exact (yields_steps path.steps).bind fun steps => yields_pure fun q hsteps =>
        Placeholders.root_subset_names h.1 hsteps
    next => exact yields_throw _

/-- A condition that is built names the attributes of its term. -/
lemma yields_names_condition : ∀ {t : Term}, t.Rooted →
    Yields (condition env t) fun q _ => t.attributes ⊆ q.names
  | .compare _ l r _, h => by
    refine (yields_names_operand h.1).bind fun left => (yields_names_operand h.2).bind fun right =>
      yields_pure ?_
    exact fun q hr hl => List.append_subset.2 ⟨hl, hr⟩
  | .and l r, h | .or l r, h => by
    refine (yields_names_condition h.1).bind fun left => (yields_names_condition h.2).bind
      fun right => yields_pure ?_
    exact fun q hr hl => List.append_subset.2 ⟨hl, hr⟩
  | .not t, h => by
    have ht : t.Rooted := h
    exact (yields_names_condition ht).bind fun c => yields_pure fun q hnames => hnames
  | .is path test isNegated, h => by
    refine (yields_steps path.steps).bind fun steps => ?_
    have hroot {q : Placeholders} (hsteps : q.pathSteps? steps = some path.steps) :
        [path.root] ⊆ q.names :=
      Placeholders.root_subset_names h hsteps
    cases test with
    | any => cases isNegated <;> exact yields_pure fun q hsteps => hroot hsteps
    | tag t => exact (yields_value _).bind fun n => yields_pure fun q _ hsteps => hroot hsteps
  | .value _, _ | .name _, _ | .arith .., _ | .neg _, _ | .call .., _ => yields_throw _

/-- The name of a key has a number once its comparison is built. -/
lemma yields_names_keyComparison (name : String) (op : Comparison) (v : Stored) :
    Yields (KeyCondition.comparison name op v) fun q _ => name ∈ q.names :=
  (yields_name name).bind fun _ => (yields_value v).bind fun _ =>
    yields_pure fun _ _ hname => List.mem_of_getElem? hname

/-- The names of the keys have numbers once the key condition is built. -/
lemma yields_names_comparisons (c : KeyCondition) :
    Yields c.comparisons fun q _ => c.attributes ⊆ q.names := by
  obtain ⟨index, partitionKey, partitionValue, sortKey, sort⟩ := c
  refine (yields_names_keyComparison partitionKey .eq partitionValue).bind fun partition => ?_
  match sortKey, sort with
  | some name, some bound =>
    refine (yields_names_keyComparison name bound.comparison bound.constant).bind fun sorting =>
      yields_pure fun q hsort hpartition => ?_
    exact List.cons_subset.2 ⟨hpartition, List.cons_subset.2 ⟨hsort, List.nil_subset _⟩⟩
  | some _, none | none, some _ | none, none =>
    exact yields_pure fun q hpartition => List.cons_subset.2 ⟨hpartition, List.nil_subset _⟩

/-- The names in a filter, if there is one, have numbers once it is built. -/
lemma yields_names_filterCondition {filter : Option Term} (h : ∀ t ∈ filter, t.Rooted) :
    Yields (Plan.filterCondition env filter) fun q _ =>
      filter.elim [] Term.attributes ⊆ q.names := by
  cases filter with
  | none => exact yields_pure fun _ => List.nil_subset _
  | some t => exact (yields_names_condition (h t rfl)).bind fun c => yields_pure fun q hq => hq

end Native

/-- A condition on keys treats items alike that agree on its attributes. -/
lemma KeyCondition.accepts_congr {c : KeyCondition} {item item' : Item}
    (h : item.AgreeOn c.attributes item') : c.accepts item = c.accepts item' := by
  obtain ⟨index, partitionKey, partitionValue, sortKey, sort⟩ := c
  have hpartition := h partitionKey List.mem_cons_self
  unfold accepts
  dsimp only
  rw [hpartition]
  match sortKey, sort with
  | some name, some bound =>
    have hsort := h name (List.mem_cons_of_mem _ List.mem_cons_self)
    dsimp only
    rw [hsort]
  | some _, none | none, some _ | none, none => rfl

namespace Plan

open Native.Build

variable {env : Environment} {schema : TableSchema}

/-- A plan has the same result for items that agree on the attributes of its parts. -/
lemma matches?_congr {p : Plan} {item item' : Item}
    (hkey : ∀ key ∈ p.keyCondition, item.AgreeOn key.attributes item')
    (hfilter : item.AgreeOn (p.filter.elim [] Term.attributes) item') :
    p.matches? env item = p.matches? env item' := by
  have haccepts : (p.keyCondition.all fun c => c.accepts item)
      = p.keyCondition.all fun c => c.accepts item' := by
    cases hc : p.keyCondition with
    | none => rfl
    | some key => exact KeyCondition.accepts_congr (hkey key hc)
  unfold matches?
  rw [haccepts]
  cases hf : p.filter with
  | none => rfl
  | some t =>
    rw [hf] at hfilter
    dsimp only
    rw [Term.holds_congr hfilter]

/-- The attributes of a term are those of the keys and of the filter that it is split into. -/
lemma attributes_subset {t : Term} {index : Option String} {keys : KeySchema} {key : KeyCondition}
    {used : List Nat} (h : select? t.conjuncts.zipIdx index keys = some (key, used)) :
    t.attributes ⊆ key.attributes
      ++ (residual? t.conjuncts.zipIdx used).elim [] Term.attributes := by
  rw [residual?_eq, Term.attributes_conjunction?, (Term.joins_conjuncts t).attributes_eq]
  intro name hname
  obtain ⟨u, hu, hname⟩ := List.mem_flatMap.1 hname
  obtain ⟨i, hi⟩ := List.mem_iff_getElem?.1 hu
  rw [List.mem_append]
  by_cases hused : i ∈ used
  · -- the conjunct is a comparison of a key
    obtain ⟨k, op, v, hterm, hk⟩ :=
      keyTerm?_of_used h (List.mk_mem_zipIdx_iff_getElem?.2 hi) hused
    rw [Term.keyTerm?_eq_some_iff.1 hterm] at hname
    rw [List.mem_singleton.1 hname]
    exact .inl hk
  · exact .inr (List.mem_flatMap.2 ⟨u, mem_unused_iff.2 ⟨i, hi, hused⟩, hname⟩)

/-- A plan of a term declares the attributes of its parts and those of the term. -/
lemma declares_of_ofTerm {t : Term} (ht : t.Rooted) {p : Plan} (h : ofTerm env schema t = .ok p) :
    (∀ key ∈ p.keyCondition, key.attributes ⊆ p.declared)
      ∧ p.filter.elim [] Term.attributes ⊆ p.declared ∧ t.attributes ⊆ p.declared := by
  unfold ofTerm at h
  dsimp only at h
  split at h
  next =>
    obtain ⟨⟨filter, q⟩, hbuild, h⟩ := bind_eq_ok_iff.1 h
    cases h
    have hnames := (Native.yields_names_condition ht).of_build hbuild
    have hdeclared := List.Subset.trans hnames q.names_subset_nameFields
    exact ⟨nofun, hdeclared, hdeclared⟩
  next key used hselect =>
    obtain ⟨⟨index, keys⟩, -, hselect⟩ := List.exists_of_findSome?_eq_some hselect
    obtain ⟨⟨⟨comparisons, condition⟩, q⟩, hbuild, h⟩ := bind_eq_ok_iff.1 h
    cases h
    have hrooted : ∀ u ∈ residual? t.conjuncts.zipIdx used, u.Rooted :=
      fun u hu => rooted_residual? ht hu
    have hparts : Yields (do
        let comparisons ← key.comparisons
        return (comparisons, ← filterCondition env (residual? t.conjuncts.zipIdx used)))
          fun q _ => key.attributes ⊆ q.names
            ∧ (residual? t.conjuncts.zipIdx used).elim [] Term.attributes ⊆ q.names :=
      (Native.yields_names_comparisons key).bind fun comparisons =>
        (Native.yields_names_filterCondition hrooted).bind fun c =>
          yields_pure fun q hfilter hkey => ⟨hkey, hfilter⟩
    obtain ⟨hkey, hfilter⟩ := hparts.of_build hbuild
    have hkey := List.Subset.trans hkey q.names_subset_nameFields
    have hfilter := List.Subset.trans hfilter q.names_subset_nameFields
    refine ⟨?_, hfilter, List.Subset.trans (attributes_subset hselect)
      (List.append_subset.2 ⟨hkey, hfilter⟩)⟩
    rintro _ ⟨⟩
    exact hkey

/-- A plan that an expression compiles to and the whole expression have the same result in any
environment, or the same error, for items that agree on the attributes that the plan declares. So
they have it for the declared attributes of an item alone. -/
theorem compile_reads_declared {text : String} {p : Plan} (h : compile env schema text = .ok p) :
    ∃ e t, Expr.parse text = .ok e ∧ Term.ofExpr schema e = .ok t
      ∧ (∀ (env' : Environment) (item item' : Item), item.AgreeOn p.declared item' →
        p.matches? env' item = p.matches? env' item' ∧ t.holds env' item = t.holds env' item')
      ∧ ∀ (env' : Environment) (item : Item),
        p.matches? env' (item.project p.declared) = p.matches? env' item
          ∧ t.holds env' (item.project p.declared) = t.holds env' item := by
  obtain ⟨e, t, hparse, hlower, hplan⟩ := compile_eq_ok_iff.1 h
  have hrooted : t.Rooted :=
    (Term.lowers_of_ofExpr e hlower).rooted (Expr.wellFormed_of_parse hparse)
  obtain ⟨hkey, hfilter, hterm⟩ := declares_of_ofTerm hrooted hplan
  have hreads (env' : Environment) (item item' : Item) (hagree : item.AgreeOn p.declared item') :
      p.matches? env' item = p.matches? env' item' ∧ t.holds env' item = t.holds env' item' :=
    ⟨matches?_congr (fun key hk => hagree.mono (hkey key hk)) (hagree.mono hfilter),
      Term.holds_congr (hagree.mono hterm)⟩
  exact ⟨e, t, hparse, hlower, hreads, fun env' item =>
    hreads env' _ item (item.agreeOn_project p.declared)⟩

/-- A plan with a key, a map and a size in it, and a constant that is computed; an attribute that is
not declared makes no difference. -/
theorem compile_reads_declared_undeclared :
    let schema : TableSchema := ⟨"t", ⟨⟨"a", .string⟩, none⟩, []⟩
    let text := "a = \"k\" and (b.c is not \"any\" or size(d) > 1 + 1)"
    let item : Item := [("a", .string "k"), ("b", .map []), ("e", .number "1")]
    let item' : Item := [("a", .string "k"), ("b", .map [])]
    ∃ p, compile {} schema text = .ok p ∧ p.declared = ["a", "b", "c", "d"]
      ∧ item.AgreeOn p.declared item' ∧ p.matches? {} item = p.matches? {} item'
      ∧ (p.matches? {} item').toOption = some true := by
  intro schema text item item'
  have h : (compile {} schema text).toOption.any (fun p =>
      p.declared = ["a", "b", "c", "d"] ∧ (p.matches? {} item').toOption = some true) = true := by
    decide +kernel
  obtain ⟨p, hp, h⟩ := exists_of_any_toOption h
  obtain ⟨hdeclared, hmatches⟩ := of_decide_eq_true h
  have hagree : item.AgreeOn p.declared item' := by
    rw [hdeclared]
    unfold Item.AgreeOn
    decide
  obtain ⟨_, _, -, -, hreads, -⟩ := compile_reads_declared hp
  exact ⟨p, hp, hdeclared, hagree, (hreads {} item item' hagree).1, hmatches⟩

end Plan

end TableQuery
