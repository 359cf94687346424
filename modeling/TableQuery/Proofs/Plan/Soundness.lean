import TableQuery.Proofs.Plan.Selection
import TableQuery.Proofs.Term.KeyTerms
import TableQuery.Proofs.Value.Stored

/-!
# Soundness of plans

A plan selects an item exactly if the whole expression holds on it. The condition on keys compares
stored values where the expression compares their values, and it looks at its terms before all
others, so that it may reject an item on which the expression fails at an earlier term.
-/

namespace TableQuery

/-- A constant that a key can have is a number or a string. -/
lemma Literal.isScalar_of_accepts {l : Literal} {type : ScalarType}
    (h : type.accepts l.value.toStored = true) : l.value.IsScalar := by
  cases l with
  | string s => exact .inr ⟨s, rfl⟩
  | int n => exact .inl ⟨_, rfl⟩
  | decimal d => exact .inl ⟨d, rfl⟩
  | bool b => cases type <;> cases h
  | null => cases type <;> cases h

/-- A constant has the value of a literal. -/
lemma Expr.eq_literal_of_constant? {e : Expr} {v : Value} (h : e.constant? = some v) :
    ∃ l : Literal, v = l.value := by
  cases e with
  | literal l =>
    cases h
    exact ⟨l, rfl⟩
  | neg e =>
    obtain ⟨w, _, hv⟩ := Option.bind_eq_some_iff.1 h
    cases hn : w.negate with
    | error _ =>
      rw [hn] at hv
      cases hv
    | ok w' =>
      rw [hn] at hv
      cases hv
      obtain ⟨_, l, hl, _⟩ := Term.negate_eq_literal hn
      exact ⟨l, hl⟩
  | _ => cases h

/-- The value of an attribute, which may be absent. -/
lemma Item.value_attribute (item : Item) (name : String) :
    item.value ⟨[.key name]⟩ =
      ((Fields.get? name item).elim (.error (.nameNotFound ⟨[.key name]⟩)) Value.read) := by
  unfold Item.value Item.get
  change (do Value.read (← Stored.get _ [.key name] (.map item))) = _
  rw [Stored.get]
  cases Fields.get? name item <;> rfl

namespace Plan

/-- A bound accepts a stored value exactly if its comparison holds of the value. -/
lemma accepts_iff_compare? {op : Comparison} {v w : Value} {a : Stored} {bound : SortCondition}
    (hv : v.IsScalar) (hb : SortCondition.ofTerm? op v.toStored = some bound)
    (ha : Value.ofStored a = .ok w) :
    bound.accepts a = true ↔ Value.compare? op w v = some true := by
  have horder := Value.compareScalar?_eq_order? ha hv
  obtain ⟨_, hstring⟩ := Value.scalar_of_ofStored ha
  cases op with
  | eq =>
    cases hb
    rw [SortCondition.accepts, horder, Value.compare?, Value.same_eq_order? hv, Option.some_inj]
  | ne => cases hb
  | lt | le | gt | ge =>
    cases hb
    rw [SortCondition.accepts, horder, Value.compare?]
    cases w.order? v with
    | none => decide
    | some o => cases o <;> decide
  | beginsWith =>
    -- a number bounds no beginning
    rcases hv with ⟨x, hx⟩ | ⟨s, rfl⟩
    · rw [Value.toStored_of_decimal? hx] at hb
      cases hb
    · cases hb
      rw [SortCondition.accepts, Value.compare?, hstring]
      cases a.string? with
      | none => exact iff_of_false Bool.false_ne_true (by rintro ⟨⟩)
      | some t => simp [Value.string?]

/-- A bound accepts no stored value that has no value. -/
lemma not_accepts_of_error {op : Comparison} {v : Value} {a : Stored} {bound : SortCondition}
    {cause : ConversionError} (hv : v.IsScalar)
    (hb : SortCondition.ofTerm? op v.toStored = some bound)
    (ha : Value.ofStored a = .error cause) : ¬ bound.accepts a = true := by
  have horder := Value.compareScalar?_eq_none ha hv
  obtain ⟨_, hstring⟩ := Value.scalar_of_ofStored_error ha
  unfold SortCondition.ofTerm? at hb
  split at hb <;> cases hb
  case h_6 => simp [SortCondition.accepts, hstring]
  all_goals
    rw [SortCondition.accepts, horder]
    exact Bool.false_ne_true

/-- A comparison of an attribute with a constant holds exactly if its bound accepts the attribute. -/
lemma holds_compare_iff (env : Environment) (item : Item) {name : String} {op : Comparison}
    {v : Value} {bound : SortCondition} (hv : v.IsScalar)
    (hb : SortCondition.ofTerm? op v.toStored = some bound) :
    (Term.compare op (.name ⟨[.key name]⟩) (.value v) true).holds env item = .ok true
      ↔ (Fields.get? name item).any bound.accepts = true := by
  rw [Term.holds, Term.eval, Term.eval, Term.eval, Item.value_attribute]
  cases Fields.get? name item with
  | none => exact iff_of_false (by rintro ⟨⟩) Bool.false_ne_true
  | some a =>
    rw [Option.elim_some, Option.any_some, Value.read]
    cases ha : Value.ofStored a with
    | error cause => exact iff_of_false (by rintro ⟨⟩) (not_accepts_of_error hv hb ha)
    | ok w =>
      rw [accepts_iff_compare? hv hb ha]
      change (w.compare op v >>= fun b => pure (Value.bool b)) >>= Term.truth _ = .ok true ↔ _
      unfold Value.compare
      cases Value.compare? op w v with
      | none => exact iff_of_false (by rintro ⟨⟩) (by rintro ⟨⟩)
      | some b =>
        cases b with
        | false => exact iff_of_false (by rintro ⟨⟩) (by rintro ⟨⟩)
        | true => exact iff_of_true rfl rfl

variable {schema : TableSchema} {e : Expr} {t u : Term}

/-- The key terms of a lowered expression have the constants of literals. -/
lemma eq_compare_of_keyTerm? (h : Term.ofExpr schema e = .ok t) (hu : u ∈ t.conjuncts) {name : String}
    {op : Comparison} {v : Value} (hk : u.keyTerm? = some (name, op, v)) :
    u = .compare op (.name ⟨[.key name]⟩) (.value v) true ∧ ∃ l : Literal, v = l.value := by
  refine ⟨Term.keyTerm?_eq_some_iff.1 hk, ?_⟩
  obtain ⟨i, hi⟩ := List.mem_iff_getElem?.1 hu
  obtain ⟨c, _, hc⟩ := Term.written_getElem? (Term.lowers_conjuncts h) hi
  obtain ⟨_, d, hd, _⟩ := hc.keyTerm?_eq_some_iff.1 hk
  exact Expr.eq_literal_of_constant? hd

/-- A term that bounds a sort key holds exactly if the bound accepts the key. -/
lemma holds_iff_of_sortTerm? (h : Term.ofExpr schema e = .ok t) (hu : u ∈ t.conjuncts)
    {key : KeyAttribute} {bound : SortCondition} (hb : sortTerm? key u = some bound)
    (env : Environment) (item : Item) :
    u.holds env item = .ok true ↔ (Fields.get? key.name item).any bound.accepts = true := by
  obtain ⟨op, v, hk, htype, hbound⟩ := sortTerm?_eq_some_iff.1 hb
  obtain ⟨rfl, l, rfl⟩ := eq_compare_of_keyTerm? h hu hk
  exact holds_compare_iff env item (Literal.isScalar_of_accepts htype) hbound

/-- A term that fixes a partition key is a bound on it. -/
lemma sortTerm?_of_partitionTerm? {key : KeyAttribute} {value : Stored}
    (h : partitionTerm? key u = some value) : sortTerm? key u = some (.eq value) := by
  obtain ⟨v, hk, rfl, htype⟩ := partitionTerm?_eq_some_iff.1 h
  exact sortTerm?_eq_some_iff.2 ⟨.eq, v, hk, htype, rfl⟩

/-- A condition on keys accepts an item exactly if its bounds accept the keys. -/
lemma keyCondition_accepts_iff {key : KeyCondition} {item : Item} :
    key.accepts item = true
      ↔ (Fields.get? key.partitionKey item).any (SortCondition.eq key.partitionValue).accepts = true
        ∧ ∀ name bound, key.sortKey = some name → key.sort = some bound →
          (Fields.get? name item).any bound.accepts = true := by
  have partition : ∀ o : Option Stored,
      ((o.bind fun v => v.compareScalar? key.partitionValue) == some .eq)
        = o.any (SortCondition.eq key.partitionValue).accepts := by
    intro o
    cases o <;> rfl
  unfold KeyCondition.accepts
  dsimp only
  rw [Bool.and_eq_true, partition]
  refine and_congr_right fun _ => ?_
  cases key.sortKey <;> cases key.sort <;> simp

/-- The condition of a selected key schema accepts an item exactly if the terms that it uses hold. -/
lemma accepts_iff_holds {key : KeyCondition} {keys : KeySchema} {index : Option String}
    {used : List Nat} (h : Term.ofExpr schema e = .ok t)
    (hselect : select? t.conjuncts.zipIdx index keys = some (key, used)) (env : Environment)
    (item : Item) :
    key.accepts item = true
      ↔ ∀ x ∈ t.conjuncts.zipIdx, x.2 ∈ used → x.1.holds env item = .ok true := by
  obtain ⟨value, place, sort, hfirst, hfound, rfl, rfl⟩ := select?_eq_some hselect
  have hplaced := placed_zipIdx t.conjuncts
  -- a place has one term, so that what holds of the terms at a place is said of that term
  have unique : ∀ {x u i}, (u, i) ∈ t.conjuncts.zipIdx → x ∈ t.conjuncts.zipIdx → x.2 = i →
      x.1 = u := by
    rintro ⟨u', i⟩ u i hu hx rfl
    rw [List.mk_mem_zipIdx_iff_getElem?] at hu hx
    exact Option.some_inj.1 (hx.symm.trans hu)
  have bound : ∀ {k bound u i}, sortTerm? k u = some bound → (u, i) ∈ t.conjuncts.zipIdx →
      ((Fields.get? k.name item).any bound.accepts = true
        ↔ ∀ x ∈ t.conjuncts.zipIdx, x.2 = i → x.1.holds env item = .ok true) := by
    intro k bound u i hb hu
    have hmem := List.mem_of_getElem? (List.mk_mem_zipIdx_iff_getElem?.1 hu)
    rw [← holds_iff_of_sortTerm? h hmem hb env item]
    exact ⟨fun hx x hmem hi => unique hu hmem hi ▸ hx, fun hx => hx _ hu rfl⟩
  obtain ⟨⟨u, hu, hpartition⟩, _⟩ := firstOf?_eq_some hplaced hfirst
  rw [keyCondition_accepts_iff, bound (sortTerm?_of_partitionTerm? hpartition) hu]
  cases sort with
  | none =>
    refine (and_iff_left (by rintro _ _ _ ⟨⟩)).trans ?_
    exact forall₂_congr fun x _ => by simp
  | some found =>
    obtain ⟨b, j⟩ := found
    obtain ⟨k, hk, hfound⟩ := Option.bind_eq_some_iff.1 hfound
    obtain ⟨⟨w, hw, hb⟩, _⟩ := firstOf?_eq_some (hplaced.filter _) hfound
    have hsort := bound hb (List.mem_filter.1 hw).1
    constructor
    · rintro ⟨hplace, hbound⟩ x hx hused
      rcases List.mem_cons.1 hused with hi | hi
      · exact hplace x hx hi
      · refine hsort.1 (hbound k.name b ?_ rfl) x hx (List.mem_singleton.1 hi)
        rw [hk]
        rfl
    · intro hused
      refine ⟨fun x hx hi => hused x hx (hi ▸ List.mem_cons_self), ?_⟩
      rintro name _ hname ⟨⟩
      rw [hk] at hname
      cases hname
      exact hsort.2 fun x hx hi => hused x hx (hi ▸ List.mem_cons_of_mem _ List.mem_cons_self)

/-- The terms that are left hold as all terms do, if those that are used hold. -/
lemma residual?_holds {used : List Nat} {env : Environment} {item : Item}
    (h : ∀ x ∈ t.conjuncts.zipIdx, x.2 ∈ used → x.1.holds env item = .ok true) :
    (residual? t.conjuncts.zipIdx used).elim (.ok true) (Term.holds env item)
      = t.holds env item := by
  rw [residual?_eq, Term.holds_conjunction?, unused, Term.holdsAll_filter, List.zipIdx_map_fst,
    ← Term.holds_eq_holdsAll]
  intro x hx hused
  exact h x hx (by simpa using hused)

/-- A plan gives the result of the whole term, or rejects an item on which the term fails. -/
lemma matches?_of_ofTerm {env : Environment} {p : Plan} (h : Term.ofExpr schema e = .ok t)
    (hp : ofTerm env schema t = .ok p) (env' : Environment) (item : Item) :
    p.matches? env' item = t.holds env' item
      ∨ (∃ err, t.holds env' item = .error err) ∧ p.matches? env' item = .ok false := by
  rcases ofTerm_eq_ok hp with ⟨_, hkey, hfilter⟩ |
    ⟨_, index, keys, _, key, used, _, _, hselect, hkey, hfilter⟩
  · left
    unfold matches?
    rw [hkey, hfilter]
    rfl
  · have haccepts := accepts_iff_holds h hselect env' item
    unfold matches?
    rw [hkey, hfilter, Option.all_some]
    cases ha : key.accepts item with
    | true =>
      left
      rw [if_pos rfl, ← residual?_holds (haccepts.1 ha)]
      cases residual? t.conjuncts.zipIdx used <;> rfl
    | false =>
      rw [if_neg Bool.false_ne_true]
      cases hholds : t.holds env' item with
      | error err => exact .inr ⟨⟨err, rfl⟩, rfl⟩
      | ok b =>
        left
        cases b with
        | false => rfl
        | true =>
          -- every conjunct holds, and with them those that the condition on keys is made of
          exfalso
          rw [Term.holds_eq_holdsAll, Term.holdsAll_eq_true_iff] at hholds
          have hall := haccepts.2 fun x hx _ => hholds x.1
            (List.mem_of_getElem? (List.mem_zipIdx_iff_getElem?.1 hx))
          rw [ha] at hall
          cases hall

/-- A plan that an expression compiles to gives for every item the result of the whole expression,
except that it may reject an item on which the expression fails. So it selects exactly the items on
which the expression holds. -/
theorem compile_sound {env : Environment} {text : String} {p : Plan}
    (h : compile env schema text = .ok p) :
    ∃ e t, Expr.parse text = .ok e ∧ Term.ofExpr schema e = .ok t
      ∧ ∀ env' item,
        (p.matches? env' item = t.holds env' item
          ∨ (∃ err, t.holds env' item = .error err) ∧ p.matches? env' item = .ok false)
        ∧ (p.matches? env' item = .ok true ↔ t.holds env' item = .ok true) := by
  unfold compile at h
  obtain ⟨e, he, h⟩ := bind_eq_ok_iff.1 h
  obtain ⟨t, ht, hp⟩ := bind_eq_ok_iff.1 h
  refine ⟨e, t, ?_, ht, fun env' item => ?_⟩
  · cases hparse : Expr.parse text with
    | error err =>
      rw [hparse] at he
      cases he
    | ok e' =>
      rw [hparse] at he
      cases he
      rfl
  · have hmatches := matches?_of_ofTerm ht hp env' item
    refine ⟨hmatches, ?_⟩
    rcases hmatches with hm | ⟨⟨err, herr⟩, hm⟩
    · rw [hm]
    · rw [hm, herr]
      exact iff_of_false (by rintro ⟨⟩) (by rintro ⟨⟩)

/-- The second term fixes the partition key, and the first bounds the sort key. -/
theorem compile_sound_keys :
    let schema : TableSchema := ⟨"t", ⟨⟨"a", .string⟩, some ⟨"n", .number⟩⟩, []⟩
    ∃ p e t, compile {} schema "n > 1 and a = \"k\"" = .ok p ∧ p.canQuery = true
      ∧ Term.ofExpr schema e = .ok t
      ∧ ∀ env' item, p.matches? env' item = .ok true ↔ t.holds env' item = .ok true := by
  intro schema
  have h : (compile {} schema "n > 1 and a = \"k\"").toOption.any canQuery = true := by
    decide +kernel
  cases hp : compile {} schema "n > 1 and a = \"k\"" with
  | error err =>
    rw [hp] at h
    cases h
  | ok p =>
    rw [hp] at h
    obtain ⟨e, t, _, ht, hsound⟩ := compile_sound hp
    exact ⟨p, e, t, rfl, h, ht, fun env' item => (hsound env' item).2⟩

end Plan

end TableQuery
