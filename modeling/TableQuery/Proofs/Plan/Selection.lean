import TableQuery.Plan
import TableQuery.Proofs.Except
import TableQuery.Proofs.Term.Conjuncts

/-!
# Selecting key terms

What a plan is made of: the first key schema of which a term fixes the partition key, the places of
the terms that its condition uses, and the terms at all other places.
-/

namespace TableQuery

/-- The attributes that a condition on keys looks at. -/
def KeyCondition.attributes (c : KeyCondition) : List String :=
  c.partitionKey :: match c.sortKey, c.sort with
    | some name, some _ => [name]
    | _, _ => []

namespace Plan

/-- A term fixes a partition key if it compares that key with a constant of its type by `=`. -/
lemma partitionTerm?_eq_some_iff {key : KeyAttribute} {t : Term} {value : Stored} :
    partitionTerm? key t = some value
      ↔ ∃ v, t.keyTerm? = some (key.name, .eq, v) ∧ v.toStored = value
        ∧ key.type.accepts value = true := by
  unfold partitionTerm?
  constructor
  · intro h
    split at h
    next name v hterm =>
      split at h
      next hv =>
        obtain ⟨rfl, htype⟩ := hv
        cases h
        exact ⟨v, hterm, rfl, htype⟩
      next => cases h
    next => cases h
  · rintro ⟨v, hterm, rfl, htype⟩
    rw [hterm]
    exact if_pos ⟨rfl, htype⟩

/-- A term bounds a sort key if it compares that key with a constant of its type in a way that makes
a bound. -/
lemma sortTerm?_eq_some_iff {key : KeyAttribute} {t : Term} {bound : SortCondition} :
    sortTerm? key t = some bound
      ↔ ∃ op v, t.keyTerm? = some (key.name, op, v) ∧ key.type.accepts v.toStored = true
        ∧ SortCondition.ofTerm? op v.toStored = some bound := by
  unfold sortTerm?
  constructor
  · intro h
    split at h
    next name op v hterm =>
      split at h
      next hv =>
        obtain ⟨rfl, htype⟩ := hv
        exact ⟨op, v, hterm, htype, h⟩
      next => cases h
    next => cases h
  · rintro ⟨op, v, hterm, htype, h⟩
    rw [hterm]
    exact (if_pos ⟨rfl, htype⟩).trans h

variable {α : Type} {f : Term → Option α} {terms : List (Term × Nat)}

/-- Terms with their places, which grow from term to term. -/
def Placed (terms : List (Term × Nat)) : Prop :=
  terms.Pairwise fun x y => x.2 < y.2

/-- The places of the terms of a list grow from term to term. -/
lemma placed_zipIdx (ts : List Term) : Placed ts.zipIdx := by
  unfold Placed
  rw [List.pairwise_iff_getElem]
  intro i j hi hj hij
  rw [List.getElem_zipIdx, List.getElem_zipIdx]
  omega

/-- Nothing can be made of any term exactly if nothing is found. -/
lemma firstOf?_eq_none_iff : firstOf? f terms = none ↔ ∀ x ∈ terms, f x.1 = none := by
  unfold firstOf?
  rw [List.findSome?_eq_none_iff]
  constructor
  · intro h x hx
    exact Option.map_eq_none_iff.1 (h x hx)
  · intro h x hx
    exact Option.map_eq_none_iff.2 (h x hx)

/-- What is found is made of a term, and nothing can be made of a term at an earlier place. -/
lemma firstOf?_eq_some (placed : Placed terms) {a : α} {i : Nat}
    (h : firstOf? f terms = some (a, i)) :
    (∃ t, (t, i) ∈ terms ∧ f t = some a) ∧ ∀ u j, (u, j) ∈ terms → j < i → f u = none := by
  obtain ⟨before, ⟨t, k⟩, after, rfl, hfound, hbefore⟩ := List.findSome?_eq_some_iff.1 h
  obtain ⟨b, hb, e⟩ := Option.map_eq_some_iff.1 hfound
  cases e
  refine ⟨⟨t, by simp, hb⟩, ?_⟩
  intro u j hu hj
  rcases List.mem_append.1 hu with hu | hu
  · exact Option.map_eq_none_iff.1 (hbefore _ hu)
  · exfalso
    have later := (List.pairwise_append.1 placed).2.1
    rcases List.mem_cons.1 hu with e | hu
    · cases e
      exact Nat.lt_irrefl _ hj
    · exact Nat.lt_asymm hj (List.rel_of_pairwise_cons later hu)

/-- A key schema is selected exactly if a term fixes its partition key. -/
lemma select?_eq_none_iff {index : Option String} {keys : KeySchema} :
    select? terms index keys = none
      ↔ ∀ x ∈ terms, partitionTerm? keys.partitionKey x.1 = none := by
  rw [← firstOf?_eq_none_iff]
  unfold select?
  cases firstOf? (partitionTerm? keys.partitionKey) terms <;> simp

/-- The condition that is selected and the places of the terms that it uses. -/
lemma select?_eq_some {index : Option String} {keys : KeySchema} {key : KeyCondition}
    {used : List Nat} (h : select? terms index keys = some (key, used)) :
    ∃ value i sort, firstOf? (partitionTerm? keys.partitionKey) terms = some (value, i)
      ∧ (keys.sortKey.bind fun k => firstOf? (sortTerm? k) (terms.filter fun x => x.2 ≠ i)) = sort
      ∧ key = ⟨index, keys.partitionKey.name, value, keys.sortKey.map KeyAttribute.name,
        sort.map Prod.fst⟩
      ∧ used = i :: (sort.map Prod.snd).toList := by
  unfold select? at h
  obtain ⟨⟨value, i⟩, hfirst, h⟩ := Option.bind_eq_some_iff.1 h
  cases h
  exact ⟨value, i, _, hfirst, rfl, rfl, rfl⟩

/-- The conjuncts that a key condition uses compare the keys of that condition. -/
lemma keyTerm?_of_used {t u : Term} {index : Option String} {keys : KeySchema} {key : KeyCondition}
    {used : List Nat} {i : Nat} (h : select? t.conjuncts.zipIdx index keys = some (key, used))
    (hu : (u, i) ∈ t.conjuncts.zipIdx) (hi : i ∈ used) :
    ∃ name op v, u.keyTerm? = some (name, op, v) ∧ name ∈ key.attributes := by
  have hplaced := placed_zipIdx t.conjuncts
  have hsame {w : Term} (hw : (w, i) ∈ t.conjuncts.zipIdx) : w = u := by
    rw [List.mk_mem_zipIdx_iff_getElem?] at hu hw
    exact Option.some.inj (hw.symm.trans hu)
  obtain ⟨value, place, sort, hfirst, hsort, rfl, rfl⟩ := select?_eq_some h
  rcases List.mem_cons.1 hi with rfl | hi
  · obtain ⟨⟨w, hw, hterm⟩, -⟩ := firstOf?_eq_some hplaced hfirst
    obtain ⟨v, hkey, -⟩ := partitionTerm?_eq_some_iff.1 hterm
    exact ⟨_, _, _, hsame hw ▸ hkey, List.mem_cons_self⟩
  · obtain ⟨⟨bound, place'⟩, rfl, rfl⟩ := Option.map_eq_some_iff.1 (Option.mem_toList.1 hi)
    obtain ⟨k, hk, hbound⟩ := Option.bind_eq_some_iff.1 hsort
    obtain ⟨⟨w, hw, hterm⟩, -⟩ := firstOf?_eq_some (hplaced.filter _) hbound
    obtain ⟨op, v, hkey, -⟩ := sortTerm?_eq_some_iff.1 hterm
    refine ⟨_, _, _, hsame (List.mem_filter.1 hw).1 ▸ hkey, ?_⟩
    rw [hk]
    exact List.mem_cons_of_mem _ List.mem_cons_self

/-- The terms whose places are not used, in their order. -/
def unused (used : List Nat) (ts : List Term) : List Term :=
  (ts.zipIdx.filter fun x => x.2 ∉ used).map Prod.fst

/-- The terms that are left are those at places that are not used. -/
lemma mem_unused_iff {used : List Nat} {ts : List Term} {u : Term} :
    u ∈ unused used ts ↔ ∃ i, ts[i]? = some u ∧ i ∉ used := by
  simp only [unused, List.mem_map, List.mem_filter, Prod.exists, List.mk_mem_zipIdx_iff_getElem?,
    decide_eq_true_iff, exists_and_right, exists_eq_right]

/-- Terms that are left are conjuncts if all terms are. -/
lemma isConjunct_of_mem_unused {used : List Nat} {t u : Term} (h : u ∈ unused used t.conjuncts) :
    u.IsConjunct := by
  obtain ⟨i, hi, -⟩ := mem_unused_iff.1 h
  exact Term.isConjunct_of_mem_conjuncts (List.mem_of_getElem? hi)

/-- The filter is made of the terms that are not used. -/
lemma residual?_eq (used : List Nat) (ts : List Term) :
    residual? ts.zipIdx used = Term.conjunction? (unused used ts) := by
  unfold residual? unused
  congr 2
  refine List.filter_congr fun x _ => ?_
  dsimp only
  rw [List.contains_eq_mem, decide_not]

/-- A plan is a filter alone if no key schema is selected; else it is the condition on the keys of
the first that is, with a filter of all other terms. -/
lemma ofTerm_eq_ok {env : Environment} {schema : TableSchema} {t : Term} {p : Plan}
    (h : ofTerm env schema t = .ok p) :
    ((∀ keys ∈ schema.keySchemas, select? t.conjuncts.zipIdx keys.1 keys.2 = none)
      ∧ p.keyCondition = none ∧ p.filter = some t)
    ∨ ∃ before index keys after key used, schema.keySchemas = before ++ (index, keys) :: after
      ∧ (∀ earlier ∈ before, select? t.conjuncts.zipIdx earlier.1 earlier.2 = none)
      ∧ select? t.conjuncts.zipIdx index keys = some (key, used)
      ∧ p.keyCondition = some key ∧ p.filter = residual? t.conjuncts.zipIdx used := by
  unfold ofTerm at h
  dsimp only at h
  split at h
  next hnone =>
    obtain ⟨_, _, h⟩ := bind_eq_ok_iff.1 h
    cases h
    exact .inl ⟨fun keys hk => List.findSome?_eq_none_iff.1 hnone keys hk, rfl, rfl⟩
  next key used hsome =>
    obtain ⟨before, ⟨index, keys⟩, after, hsplit, hselect, hbefore⟩ :=
      List.findSome?_eq_some_iff.1 hsome
    obtain ⟨_, _, h⟩ := bind_eq_ok_iff.1 h
    cases h
    exact .inr ⟨before, index, keys, after, key, used, hsplit, hbefore, hselect, rfl, rfl⟩

/-- A text has a plan exactly if it is an expression with a term that has one. -/
lemma compile_eq_ok_iff {env : Environment} {schema : TableSchema} {text : String} {p : Plan} :
    compile env schema text = .ok p
      ↔ ∃ e t, Expr.parse text = .ok e ∧ Term.ofExpr schema e = .ok t ∧ ofTerm env schema t = .ok p := by
  have hparse {e : Expr} :
      (Expr.parse text).mapError QueryError.malformed = .ok e ↔ Expr.parse text = .ok e := by
    cases Expr.parse text <;> simp [Except.mapError]
  unfold compile
  simp only [bind_eq_ok_iff, hparse, exists_and_left]

end Plan

end TableQuery
