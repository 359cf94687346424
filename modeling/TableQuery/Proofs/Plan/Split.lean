import TableQuery.Proofs.Plan.Selection
import TableQuery.Proofs.Term.KeyTerms

/-!
# The split of an expression

A plan is the split that its description promises: the first key schema with a fixed partition key,
the first bound on its sort key, and a filter of all other conjuncts in their order.
-/

namespace TableQuery.Plan

/-- An expression fixes a partition key to a value of the key's type. -/
def FixesPartition (key : KeyAttribute) (e : Expr) (value : Stored) : Prop :=
  (∃ v, e.Compares key.name .eq v ∧ v.toStored = value) ∧ key.type.accepts value = true

/-- An expression bounds a sort key by a value of the key's type. Only a string can bound the
beginning of a key, and no bound is set by what the key is not. -/
def BoundsSort (key : KeyAttribute) (e : Expr) (bound : Comparison × Stored) : Prop :=
  (∃ v, e.Compares key.name bound.1 v ∧ v.toStored = bound.2) ∧ key.type.accepts bound.2 = true
    ∧ bound.1 ≠ .ne ∧ (bound.1 = .beginsWith → key.type = .string)

/-- The expression at place `i` makes `a`, and none at an earlier place makes anything; places that
are not asked for do not count. -/
def FirstAt {α : Type} (asked : Nat → Prop) (makes : Expr → α → Prop) (es : List Expr) (i : Nat)
    (a : α) : Prop :=
  asked i ∧ (∃ e, es[i]? = some e ∧ makes e a)
    ∧ ∀ j e b, j < i → asked j → es[j]? = some e → ¬ makes e b

/-- The bound on a sort key with the place of the conjunct that it is made of: the first conjunct
but the one at `place` that bounds the key, and no bound exactly if there is none. -/
inductive SortSplit (keys : KeySchema) (es : List Expr) (place : Nat) :
    Option SortCondition → Option Nat → Prop where
  | unbounded :
    (∀ k, keys.sortKey = some k →
      ∀ i c b, i ≠ place → es[i]? = some c → ¬ BoundsSort k c b) →
    SortSplit keys es place none none
  | bounded {k i bound} :
    keys.sortKey = some k →
    FirstAt (· ≠ place) (BoundsSort k) es i (bound.comparison, bound.constant) →
    k.type.accepts bound.constant = true →
    SortSplit keys es place (some bound) (some i)

/-- The description of a plan with a condition on keys: the conjunct at `place` fixes the partition
key, that at `sortPlace` bounds the sort key if one does, and all others are the filter. -/
structure IsSplit (schema : TableSchema) (e : Expr) (t : Term) (p : Plan) (key : KeyCondition)
    (keys : KeySchema) (place : Nat) (sortPlace : Option Nat) : Prop where
  first : ∃ before after, schema.keySchemas = before ++ (key.index, keys) :: after
    ∧ ∀ earlier ∈ before, ∀ c ∈ e.conjuncts, ∀ v, ¬ FixesPartition earlier.2.partitionKey c v
  partitionKey : key.partitionKey = keys.partitionKey.name
  partition : FirstAt (fun _ => True) (FixesPartition keys.partitionKey) e.conjuncts place
    key.partitionValue
  partitionType : keys.partitionKey.type.accepts key.partitionValue = true
  sortKey : key.sortKey = keys.sortKey.map KeyAttribute.name
  sort : SortSplit keys e.conjuncts place key.sort sortPlace
  filter : p.filter = Term.conjunction? (unused (place :: sortPlace.toList) t.conjuncts)
  filterConjuncts : p.filter.elim [] Term.conjuncts = unused (place :: sortPlace.toList) t.conjuncts
  noFilter : p.filter = none ↔ ∀ i < t.conjuncts.length, i ∈ place :: sortPlace.toList
  complete : ((place :: sortPlace.toList).filterMap (t.conjuncts[·]?)
    ++ p.filter.elim [] Term.conjuncts).Perm t.conjuncts

variable {schema : TableSchema} {e : Expr} {t : Term}

/-- A term fixes a partition key exactly if its expression does. -/
lemma partitionTerm?_iff_fixes (h : Term.Lowers schema e t) {key : KeyAttribute}
    (hkey : schema.isKey key.name = true) {value : Stored} :
    partitionTerm? key t = some value ↔ FixesPartition key e value := by
  rw [partitionTerm?_eq_some_iff]
  constructor
  · rintro ⟨v, hterm, hvalue, htype⟩
    exact ⟨⟨v, (h.keyTerm?_eq_some_iff.1 hterm).2, hvalue⟩, htype⟩
  · rintro ⟨⟨v, hcompares, hvalue⟩, htype⟩
    exact ⟨v, h.keyTerm?_eq_some_iff.2 ⟨hkey, hcompares⟩, hvalue, htype⟩

/-- A bound has a comparison and a constant, and only some of these make one. -/
lemma ofTerm?_eq_some_iff {op : Comparison} {value : Stored} {bound : SortCondition} :
    SortCondition.ofTerm? op value = some bound ↔ op = bound.comparison ∧ value = bound.constant := by
  constructor
  · intro h
    unfold SortCondition.ofTerm? at h
    split at h <;> cases h <;> exact ⟨rfl, rfl⟩
  · rintro ⟨rfl, rfl⟩
    cases bound <;> rfl

/-- A term bounds a sort key exactly if its expression does. -/
lemma sortTerm?_iff_bounds (h : Term.Lowers schema e t) {key : KeyAttribute}
    (hkey : schema.isKey key.name = true) {bound : SortCondition} :
    sortTerm? key t = some bound ↔ BoundsSort key e (bound.comparison, bound.constant) := by
  rw [sortTerm?_eq_some_iff]
  constructor
  · rintro ⟨_, v, hterm, htype, hbound⟩
    obtain ⟨rfl, hvalue⟩ := ofTerm?_eq_some_iff.1 hbound
    rw [hvalue] at htype
    refine ⟨⟨v, (h.keyTerm?_eq_some_iff.1 hterm).2, hvalue⟩, htype, ?_, ?_⟩
    · cases bound <;> exact nofun
    · intro hop
      cases bound with
      | beginsWith start =>
        cases ht : key.type with
        | string => rfl
        | _ =>
          rw [ht] at htype
          cases htype
      | _ => cases hop
  · rintro ⟨⟨v, hcompares, hvalue⟩, htype, _⟩
    dsimp only at hcompares hvalue htype
    refine ⟨bound.comparison, v, h.keyTerm?_eq_some_iff.2 ⟨hkey, hcompares⟩, ?_, ?_⟩
    · rw [hvalue]
      exact htype
    · exact ofTerm?_eq_some_iff.2 ⟨rfl, hvalue⟩

/-- No term bounds a sort key exactly if its expression does not. -/
lemma sortTerm?_eq_none_iff (h : Term.Lowers schema e t) {key : KeyAttribute}
    (hkey : schema.isKey key.name = true) :
    sortTerm? key t = none ↔ ∀ b, ¬ BoundsSort key e b := by
  constructor
  · rintro hnone ⟨op, value⟩ hb
    have hbound : ∃ bound : SortCondition, op = bound.comparison ∧ value = bound.constant := by
      obtain ⟨_, htype, hne, hstring⟩ := hb
      cases op with
      | eq => exact ⟨.eq value, rfl, rfl⟩
      | ne => exact absurd rfl hne
      | lt => exact ⟨.lt value, rfl, rfl⟩
      | le => exact ⟨.le value, rfl, rfl⟩
      | gt => exact ⟨.gt value, rfl, rfl⟩
      | ge => exact ⟨.ge value, rfl, rfl⟩
      | beginsWith =>
        dsimp only at htype
        rw [hstring rfl] at htype
        cases value with
        | string start => exact ⟨.beginsWith start, rfl, rfl⟩
        | _ => cases htype
    obtain ⟨bound, rfl, rfl⟩ := hbound
    rw [(sortTerm?_iff_bounds h hkey).2 hb] at hnone
    cases hnone
  · intro hnone
    rw [Option.eq_none_iff_forall_ne_some]
    exact fun bound hb => hnone _ ((sortTerm?_iff_bounds h hkey).1 hb)

/-- Terms at their places, of which only some are asked for. -/
def TermsAt (asked : Nat → Prop) (ts : List Term) (terms : List (Term × Nat)) : Prop :=
  Placed terms ∧ ∀ u j, (u, j) ∈ terms ↔ ts[j]? = some u ∧ asked j

/-- All terms at their places. -/
lemma termsAt_zipIdx (ts : List Term) : TermsAt (fun _ => True) ts ts.zipIdx := by
  refine ⟨placed_zipIdx ts, fun u j => ?_⟩
  rw [List.mk_mem_zipIdx_iff_getElem?, and_true]

/-- The terms at the places that are asked for. -/
lemma termsAt_filter (ts : List Term) (asked : Nat → Prop) [DecidablePred asked] :
    TermsAt asked ts (ts.zipIdx.filter fun x => asked x.2) := by
  refine ⟨(placed_zipIdx ts).filter _, fun u j => ?_⟩
  rw [List.mem_filter, List.mk_mem_zipIdx_iff_getElem?, decide_eq_true_iff]

section Search

variable {α β : Type} {f : Term → Option α} {makes : Expr → β → Prop} {g : α → β}
variable {asked : Nat → Prop} {es : List Expr} {ts : List Term} {terms : List (Term × Nat)}

/-- Nothing is found among terms exactly if no expression makes anything. -/
lemma firstOf?_eq_none_iff_forall (hl : List.Forall₂ (Term.Lowers schema) es ts)
    (hterms : TermsAt asked ts terms)
    (hnone : ∀ {e t}, Term.Lowers schema e t → (f t = none ↔ ∀ b, ¬ makes e b)) :
    firstOf? f terms = none
      ↔ ∀ i c b, asked i → es[i]? = some c → ¬ makes c b := by
  rw [firstOf?_eq_none_iff]
  constructor
  · intro h i c b hi hc
    obtain ⟨u, hu, hlowers⟩ := Term.lowered_getElem? hl hc
    exact (hnone hlowers).1 (h (u, i) ((hterms.2 u i).2 ⟨hu, hi⟩)) b
  · rintro h ⟨u, i⟩ hu
    obtain ⟨hu, hi⟩ := (hterms.2 u i).1 hu
    obtain ⟨c, hc, hlowers⟩ := Term.written_getElem? hl hu
    exact (hnone hlowers).2 fun b => h i c b hi hc

/-- What is found first among terms is what is made first of the expressions. -/
lemma firstAt_of_firstOf? (hl : List.Forall₂ (Term.Lowers schema) es ts)
    (hterms : TermsAt asked ts terms)
    (hsome : ∀ {e t a}, Term.Lowers schema e t → f t = some a → makes e (g a))
    (hnone : ∀ {e t}, Term.Lowers schema e t → (f t = none ↔ ∀ b, ¬ makes e b))
    {a : α} {i : Nat} (h : firstOf? f terms = some (a, i)) :
    FirstAt asked makes es i (g a) := by
  obtain ⟨⟨u, hu, hfound⟩, hbefore⟩ := firstOf?_eq_some hterms.1 h
  obtain ⟨hu, hi⟩ := (hterms.2 u i).1 hu
  obtain ⟨c, hc, hlowers⟩ := Term.written_getElem? hl hu
  refine ⟨hi, ⟨c, hc, hsome hlowers hfound⟩, ?_⟩
  intro j d b hj hasked hd
  obtain ⟨w, hw, hlowers'⟩ := Term.lowered_getElem? hl hd
  exact (hnone hlowers').1 (hbefore w j ((hterms.2 w j).2 ⟨hw, hasked⟩) hj) b

end Search

/-- The keys of a table are key attributes. -/
lemma isKey_of_mem {keys : Option String × KeySchema} (h : keys ∈ schema.keySchemas) :
    schema.isKey keys.2.partitionKey.name = true
      ∧ ∀ k, keys.2.sortKey = some k → schema.isKey k.name = true := by
  unfold TableSchema.isKey
  refine ⟨List.any_eq_true.2 ⟨keys, h, ?_⟩, fun k hk => List.any_eq_true.2 ⟨keys, h, ?_⟩⟩
  · simp [KeySchema.hasKey]
  · simp [KeySchema.hasKey, hk]

/-- No term fixes a partition key exactly if no expression does. -/
lemma partitionTerm?_eq_none_iff (h : Term.Lowers schema e t) {key : KeyAttribute}
    (hkey : schema.isKey key.name = true) :
    partitionTerm? key t = none ↔ ∀ v, ¬ FixesPartition key e v := by
  rw [Option.eq_none_iff_forall_ne_some]
  exact forall_congr' fun v => not_congr (partitionTerm?_iff_fixes h hkey)

/-- A key schema is selected exactly if an expression fixes its partition key. -/
lemma select?_eq_none_iff_forall {es : List Expr} {ts : List Term}
    (hl : List.Forall₂ (Term.Lowers schema) es ts) {keys : Option String × KeySchema}
    (hkeys : keys ∈ schema.keySchemas) :
    select? ts.zipIdx keys.1 keys.2 = none
      ↔ ∀ c ∈ es, ∀ v, ¬ FixesPartition keys.2.partitionKey c v := by
  rw [select?_eq_none_iff, ← firstOf?_eq_none_iff,
    firstOf?_eq_none_iff_forall hl (termsAt_zipIdx ts)
      fun h => partitionTerm?_eq_none_iff h (isKey_of_mem hkeys).1]
  constructor
  · intro h c hc v
    obtain ⟨i, hi⟩ := List.mem_iff_getElem?.1 hc
    exact h i c v trivial hi
  · intro h i c v _ hi
    exact h c (List.mem_of_getElem? hi) v

/-- Nothing is joined exactly if there is nothing to join. -/
lemma conjunction?_eq_none_iff {ts : List Term} : Term.conjunction? ts = none ↔ ts = [] := by
  cases ts with
  | nil => exact iff_of_true rfl rfl
  | cons t rest => exact iff_of_false nofun nofun

/-- No term is left exactly if all places are used. -/
lemma unused_eq_nil_iff {used : List Nat} {ts : List Term} :
    unused used ts = [] ↔ ∀ i < ts.length, i ∈ used := by
  unfold unused
  rw [List.map_eq_nil_iff, List.filter_eq_nil_iff]
  constructor
  · intro h i hi
    have := h (ts[i], i) (List.mk_mem_zipIdx_iff_getElem?.2 (List.getElem?_eq_getElem hi))
    simpa using this
  · rintro h ⟨u, i⟩ hu
    obtain ⟨hi, _⟩ := List.getElem?_eq_some_iff.1 (List.mk_mem_zipIdx_iff_getElem?.1 hu)
    simpa using h i hi

/-- The terms at used places and those that are left are all terms. -/
lemma used_append_unused_perm {used : List Nat} (h : used.Nodup) (ts : List Term) :
    (used.filterMap (ts[·]?) ++ unused used ts).Perm ts := by
  have hnodup : ts.zipIdx.Nodup := (placed_zipIdx ts).imp fun hlt he => by
    rw [he] at hlt
    exact Nat.lt_irrefl _ hlt
  -- places occur once on either side, so that membership decides
  have htaken : (used.filterMap fun i => (ts[i]?).map (·, i)).Perm
      (ts.zipIdx.filter fun x => x.2 ∈ used) := by
    rw [List.perm_ext_iff_of_nodup _ (hnodup.filter _)]
    · rintro ⟨u, i⟩
      simp only [List.mem_filterMap, Option.map_eq_some_iff, List.mem_filter,
        List.mk_mem_zipIdx_iff_getElem?, decide_eq_true_iff]
      constructor
      · rintro ⟨_, hi, _, hu, ⟨⟩⟩
        exact ⟨hu, hi⟩
      · rintro ⟨hu, hi⟩
        exact ⟨i, hi, u, hu, rfl⟩
    · refine List.Pairwise.filterMap _ ?_ h
      rintro i j hij x hx y hy rfl
      obtain ⟨_, _, rfl⟩ := Option.map_eq_some_iff.1 hx
      obtain ⟨_, _, e⟩ := Option.map_eq_some_iff.1 hy
      exact hij (congrArg Prod.snd e).symm
  have hall := (htaken.append_right _).trans
    (List.filter_append_perm (fun x => decide (x.2 ∈ used)) ts.zipIdx)
  have := hall.map Prod.fst
  rw [List.map_append, List.map_filterMap, List.zipIdx_map_fst] at this
  simpa [unused, Function.comp_def] using this

/-- The places that a split uses differ. -/
lemma SortSplit.nodup {keys : KeySchema} {es : List Expr} {place : Nat}
    {sort : Option SortCondition} {sortPlace : Option Nat}
    (h : SortSplit keys es place sort sortPlace) : (place :: sortPlace.toList).Nodup := by
  cases h with
  | unbounded _ => exact List.pairwise_singleton _ place
  | bounded _ hfirst _ => simpa using fun hp => hfirst.1 hp.symm

/-- The bound that is selected for a sort key is the one described. -/
lemma sortSplit_of_firstOf? {keys : KeySchema} {es : List Expr} {ts : List Term}
    (hl : List.Forall₂ (Term.Lowers schema) es ts)
    (hsort : ∀ k, keys.sortKey = some k → schema.isKey k.name = true) {place : Nat}
    {sort : Option (SortCondition × Nat)}
    (h : (keys.sortKey.bind fun k =>
      firstOf? (sortTerm? k) (ts.zipIdx.filter fun x => x.2 ≠ place)) = sort) :
    SortSplit keys es place (sort.map Prod.fst) (sort.map Prod.snd) := by
  cases hkey : keys.sortKey with
  | none =>
    rw [hkey] at h
    subst h
    refine .unbounded fun k hk => ?_
    rw [hkey] at hk
    cases hk
  | some k =>
    have hk := hsort k hkey
    have hterms := termsAt_filter ts (· ≠ place)
    rw [hkey, Option.bind_some] at h
    cases sort with
    | none =>
      refine .unbounded fun k' hk' => ?_
      rw [hkey] at hk'
      cases hk'
      exact (firstOf?_eq_none_iff_forall hl hterms fun hc => sortTerm?_eq_none_iff hc hk).1 h
    | some found =>
      obtain ⟨bound, i⟩ := found
      have hfirst := firstAt_of_firstOf?
        (g := fun bound : SortCondition => (bound.comparison, bound.constant)) hl hterms
        (fun hc => (sortTerm?_iff_bounds hc hk).1) (fun hc => sortTerm?_eq_none_iff hc hk) h
      obtain ⟨_, ⟨c, _, _, htype, _⟩, _⟩ := id hfirst
      exact .bounded hkey hfirst htype

/-- The split of a selected key schema is the one described. -/
lemma isSplit_of_select? {p : Plan} {key : KeyCondition} {keys : KeySchema}
    {index : Option String} {used : List Nat}
    {before after : List (Option String × KeySchema)} (h : Term.ofExpr schema e = .ok t)
    (hsplit : schema.keySchemas = before ++ (index, keys) :: after)
    (hbefore : ∀ earlier ∈ before, select? t.conjuncts.zipIdx earlier.1 earlier.2 = none)
    (hselect : select? t.conjuncts.zipIdx index keys = some (key, used))
    (hfilter : p.filter = residual? t.conjuncts.zipIdx used) :
    ∃ place sortPlace, IsSplit schema e t p key keys place sortPlace := by
  have hl := Term.lowers_conjuncts h
  have hmem : ∀ {x}, x ∈ before ++ (index, keys) :: after → x ∈ schema.keySchemas := by
    rw [hsplit]
    exact id
  obtain ⟨hpartition, hsort⟩ := isKey_of_mem (hmem (List.mem_append_right _ List.mem_cons_self))
  obtain ⟨value, place, sort, hfirst, hfound, rfl, rfl⟩ := select?_eq_some hselect
  have first := firstAt_of_firstOf? (g := id) hl (termsAt_zipIdx _)
    (fun hc => (partitionTerm?_iff_fixes hc hpartition).1)
    (fun hc => partitionTerm?_eq_none_iff hc hpartition) hfirst
  obtain ⟨_, ⟨c, _, _, htype⟩, _⟩ := id first
  have bound := sortSplit_of_firstOf? hl hsort hfound
  rw [residual?_eq] at hfilter
  have hunused : ∀ u ∈ unused (place :: (sort.map Prod.snd).toList) t.conjuncts, u.IsConjunct :=
    fun _ hu => isConjunct_of_mem_unused hu
  have conjuncts := Term.conjuncts_conjunction? hunused
  rw [← hfilter] at conjuncts
  refine ⟨place, sort.map Prod.snd, ⟨before, after, hsplit, ?_⟩, rfl, first, htype, rfl, bound,
    hfilter, conjuncts, ?_, ?_⟩
  · intro earlier he
    exact (select?_eq_none_iff_forall hl (hmem (List.mem_append_left _ he))).1 (hbefore earlier he)
  · rw [hfilter, conjunction?_eq_none_iff, unused_eq_nil_iff]
  · rw [conjuncts]
    exact used_append_unused_perm bound.nodup _

/-- A plan of a term is the split that is described: the conjuncts of the term are those of the
expression, it uses an index exactly if a conjunct fixes the partition key of one, and then it is
the first such index, with the first such conjunct and the first other one that bounds the sort key,
and the conjuncts that it does not use are its filter. -/
theorem ofTerm_isSplit {env : Environment} {p : Plan} (ht : Term.ofExpr schema e = .ok t)
    (hp : ofTerm env schema t = .ok p) :
    List.Forall₂ (fun c u => Term.ofExpr schema c = .ok u) e.conjuncts t.conjuncts
      ∧ (p.canQuery = true ↔ ∃ keys ∈ schema.keySchemas, ∃ c ∈ e.conjuncts, ∃ v,
        FixesPartition keys.2.partitionKey c v)
      ∧ (p.canQuery = false → p.keyCondition = none ∧ p.filter = some t)
      ∧ ∀ key, p.keyCondition = some key →
        ∃ keys place sortPlace, IsSplit schema e t p key keys place sortPlace := by
  have hl := Term.lowers_conjuncts ht
  refine ⟨Term.ofExpr_conjuncts ht, ?_⟩
  rcases ofTerm_eq_ok hp with ⟨hnone, hkey, hfilter⟩ |
    ⟨before, index, keys, after, key, used, hsplit, hbefore, hselect, hkey, hfilter⟩
  · unfold canQuery
    rw [hkey]
    refine ⟨iff_of_false nofun ?_, fun _ => ⟨rfl, hfilter⟩, nofun⟩
    rintro ⟨keys, hkeys, c, hc, v, hv⟩
    exact (select?_eq_none_iff_forall hl hkeys).1 (hnone keys hkeys) c hc v hv
  · unfold canQuery
    rw [hkey]
    refine ⟨iff_of_true rfl ?_, nofun, ?_⟩
    · have hmem : (index, keys) ∈ schema.keySchemas := by
        rw [hsplit]
        exact List.mem_append_right _ List.mem_cons_self
      by_contra hall
      have hsome : select? t.conjuncts.zipIdx index keys = none :=
        (select?_eq_none_iff_forall hl hmem).2 fun c hc v hv => hall ⟨_, hmem, c, hc, v, hv⟩
      rw [hsome] at hselect
      cases hselect
    · rintro _ ⟨⟩
      obtain ⟨place, sortPlace, hs⟩ := isSplit_of_select? ht hsplit hbefore hselect hfilter
      exact ⟨keys, place, sortPlace, hs⟩

/-- The last conjunct fixes the partition key, the first bounds the sort key from the left of its
comparison, and the one between them is the filter. -/
theorem ofTerm_isSplit_exchanged :
    let schema : TableSchema := ⟨"t", ⟨⟨"a", .string⟩, some ⟨"n", .number⟩⟩, []⟩
    let e : Expr := .and (.compare .lt (.literal (.int 1)) (.name ⟨[.key "n"]⟩))
      (.and (.compare .eq (.name ⟨[.key "x"]⟩) (.literal (.int 2)))
        (.compare .eq (.name ⟨[.key "a"]⟩) (.literal (.string "k"))))
    let key : KeyCondition := ⟨none, "a", .string "k", some "n", some (.gt (.number "1"))⟩
    ∃ t p, Term.ofExpr schema e = .ok t ∧ ofTerm {} schema t = .ok p ∧ p.keyCondition = some key
      ∧ ∃ keys place sortPlace, IsSplit schema e t p key keys place sortPlace := by
  intro schema e key
  have h : ∃ t p, Term.ofExpr schema e = .ok t ∧ ofTerm {} schema t = .ok p
      ∧ p.keyCondition = some key := ⟨_, _, rfl, rfl, rfl⟩
  obtain ⟨t, p, ht, hp, hkey⟩ := h
  exact ⟨t, p, ht, hp, hkey, (ofTerm_isSplit ht hp).2.2.2 key hkey⟩

end TableQuery.Plan
