import TableQuery.Proofs.Term.Holds

/-!
# Conjuncts

Terms can be joined by `and` in many nestings. A term holds as the terms that it joins hold one
after the other, and so its value, or its error, does not depend on how they are nested. So the
conjuncts of a term can be joined again from the left, and one that holds can be left out.
-/

namespace TableQuery.Term

/-- A conjunct joins nothing itself. -/
def IsConjunct (t : Term) : Prop :=
  ∀ l r, t ≠ .and l r

/-- A term that joins nothing is its only conjunct. -/
lemma IsConjunct.conjuncts {t : Term} (h : t.IsConjunct) : t.conjuncts = [t] := by
  cases t with
  | and l r => exact absurd rfl (h l r)
  | _ => rfl

/-- The conjuncts of a term join nothing. -/
lemma isConjunct_of_mem_conjuncts {t u : Term} (h : u ∈ t.conjuncts) : u.IsConjunct := by
  induction t using Term.conjuncts.induct with
  | case1 l r ihl ihr =>
    rw [Term.conjuncts, List.mem_append] at h
    exact h.elim ihl ihr
  | case2 t ht =>
    have e : t.conjuncts = [t] := IsConjunct.conjuncts fun l r => ht l r
    rw [e, List.mem_singleton] at h
    subst h
    exact fun l r => ht l r

/-- `Joins ts t` says that the term `t` joins the terms `ts` by `and`, from left to right and in
some nesting. -/
inductive Joins : List Term → Term → Prop where
  | single (t : Term) : Joins [t] t
  | and {ts us : List Term} {l r : Term} (left : Joins ts l) (right : Joins us r) :
    Joins (ts ++ us) (.and l r)

/-- A term joins its conjuncts. -/
lemma joins_conjuncts (t : Term) : Joins t.conjuncts t := by
  induction t using Term.conjuncts.induct with
  | case1 l r ihl ihr => exact .and ihl ihr
  | case2 t ht =>
    rw [IsConjunct.conjuncts fun l r => ht l r]
    exact .single t

section Joins

variable {ts us : List Term} {t u : Term}

/-- At least one term is joined. -/
lemma Joins.ne_nil (h : Joins ts t) : ts ≠ [] := by
  induction h with
  | single t => exact List.cons_ne_nil t []
  | and _ _ ihl _ => exact List.append_ne_nil_of_left_ne_nil ihl _

/-- The terms that a term joins are its conjuncts if they join nothing themselves. -/
lemma Joins.conjuncts_eq (h : Joins ts t) (hts : ∀ u ∈ ts, u.IsConjunct) : t.conjuncts = ts := by
  induction h with
  | single t => exact (hts t (List.mem_singleton_self t)).conjuncts
  | and _ _ ihl ihr =>
    obtain ⟨hl, hr⟩ := List.forall_mem_append.1 hts
    rw [Term.conjuncts, ihl hl, ihr hr]

/-- Terms that are joined from the left to what joins others are joined to these. -/
lemma Joins.foldl (h : Joins us u) (ts : List Term) : Joins (us ++ ts) (ts.foldl .and u) := by
  induction ts generalizing us u with
  | nil => rwa [List.append_nil]
  | cons t rest ih =>
    rw [List.append_cons]
    exact ih (h.and (.single t))

/-- A conjunction joins the terms that it is made of. -/
lemma joins_of_conjunction? (h : conjunction? ts = some t) : Joins ts t := by
  cases ts with
  | nil => cases h
  | cons first rest =>
    cases h
    exact (Joins.single first).foldl rest

/-- There is a conjunction of terms, and it joins them, unless there is nothing to join. -/
lemma exists_conjunction? (h : ts ≠ []) : ∃ t, conjunction? ts = some t ∧ Joins ts t := by
  cases ts with
  | nil => exact absurd rfl h
  | cons first rest => exact ⟨rest.foldl .and first, rfl, joins_of_conjunction? rfl⟩

/-- What can be told of a term by the terms that it joins can be told of terms that are joined
again. -/
lemma elim_conjunction? {α : Type} {f : Term → α} {F : List Term → α}
    (h : ∀ {ts t}, Joins ts t → f t = F ts) (ts : List Term) :
    (conjunction? ts).elim (F []) f = F ts := by
  cases ts with
  | nil => rfl
  | cons first rest => exact h (joins_of_conjunction? rfl)

/-- Conjuncts that are joined again are the conjuncts of the result. -/
lemma conjuncts_conjunction? (h : ∀ t ∈ ts, t.IsConjunct) :
    (conjunction? ts).elim [] Term.conjuncts = ts := by
  cases ts with
  | nil => rfl
  | cons first rest => exact (joins_of_conjunction? rfl).conjuncts_eq h

end Joins

variable (env : Environment) (item : Item)

/-- All terms hold, of which the first that does not decides. -/
def holdsAll : List Term → Except QueryError Bool
  | [] => .ok true
  | t :: rest => do if ← t.holds env item then holdsAll rest else return false

/-- Terms hold if those in front and then those behind do. -/
lemma holdsAll_append (ts us : List Term) :
    holdsAll env item (ts ++ us) = (do
      if ← holdsAll env item ts then holdsAll env item us else return false) := by
  induction ts with
  | nil => rfl
  | cons t rest ih =>
    rw [List.cons_append, holdsAll, holdsAll, ih, bind_assoc]
    congr 1
    funext b
    cases b <;> rfl

/-- One term holds if it holds. -/
lemma holdsAll_singleton (t : Term) : holdsAll env item [t] = t.holds env item := by
  rw [holdsAll]
  cases t.holds env item with
  | error e => rfl
  | ok b => cases b <;> rfl

/-- A term holds as the terms that it joins do one after the other, however they are nested. -/
lemma Joins.holds_eq {ts : List Term} {t : Term} (h : Joins ts t) :
    t.holds env item = holdsAll env item ts := by
  induction h with
  | single t => rw [holdsAll_singleton]
  | and _ _ ihl ihr => rw [holdsAll_append, holds_and, ihl, ihr]

/-- A term holds as its conjuncts do. -/
lemma holds_eq_holdsAll (t : Term) : t.holds env item = holdsAll env item t.conjuncts :=
  (joins_conjuncts t).holds_eq env item

/-- Terms hold joined again as they hold one after the other. -/
lemma holds_conjunction? (ts : List Term) :
    (conjunction? ts).elim (.ok true) (Term.holds env item) = holdsAll env item ts :=
  elim_conjunction? (F := holdsAll env item) (fun h => h.holds_eq env item) ts

/-- All terms hold exactly if each does. -/
lemma holdsAll_eq_true_iff {ts : List Term} :
    holdsAll env item ts = .ok true ↔ ∀ t ∈ ts, t.holds env item = .ok true := by
  induction ts with
  | nil => simp [holdsAll]
  | cons t rest ih =>
    rw [List.forall_mem_cons, holdsAll, ← ih]
    cases t.holds env item with
    | error e => exact iff_of_false nofun fun h => nomatch h.1
    | ok b =>
      cases b with
      | false => exact iff_of_false nofun fun h => nomatch h.1
      | true => exact ⟨fun h => ⟨rfl, h⟩, fun h => h.2⟩

/-- Terms that hold can be left out. -/
lemma holdsAll_filter {α : Type} {terms : List (Term × α)} {keep : Term × α → Bool}
    (h : ∀ x ∈ terms, keep x = false → x.1.holds env item = .ok true) :
    holdsAll env item ((terms.filter keep).map Prod.fst)
      = holdsAll env item (terms.map Prod.fst) := by
  induction terms with
  | nil => rfl
  | cons x rest ih =>
    rw [List.forall_mem_cons] at h
    cases hx : keep x with
    | true =>
      rw [List.filter_cons_of_pos hx, List.map_cons, List.map_cons, holdsAll, holdsAll, ih h.2]
    | false =>
      rw [List.filter_cons_of_neg (by simp [hx]), List.map_cons, holdsAll, h.1 hx, ih h.2]
      rfl

section Value

variable {ts : List Term} {t u : Term}

/-- A conjunction has no value but whether it holds. -/
lemma eval_and_eq_map (l r : Term) :
    (Term.and l r).eval env item = ((Term.and l r).holds env item).map .bool := by
  rw [holds_and, eval_and]
  cases l.holds env item with
  | error e => rfl
  | ok b =>
    cases b with
    | false => rfl
    | true => cases r.holds env item <;> rfl

/-- A term that joins more than one has no value but whether these hold. -/
lemma Joins.eval_eq_map (h : Joins ts t) :
    ts = [t] ∨ 1 < ts.length ∧ t.eval env item = (holdsAll env item ts).map .bool := by
  cases h with
  | single => exact .inl rfl
  | @and ts us l r hl hr =>
    have hts : 0 < ts.length := List.length_pos_iff.2 hl.ne_nil
    have hus : 0 < us.length := List.length_pos_iff.2 hr.ne_nil
    refine .inr ⟨?_, ?_⟩
    · rw [List.length_append]
      omega
    · rw [eval_and_eq_map, (hl.and hr).holds_eq]

/-- Terms that join the same have the same value, or the same error, however they are nested. -/
lemma Joins.eval_eq (ht : Joins ts t) (hu : Joins ts u) : t.eval env item = u.eval env item := by
  -- the number of joined terms tells whether there is a conjunction, so it does of both or of none
  rcases ht.eval_eq_map env item with rfl | ⟨hlen, ht⟩
  · rcases hu.eval_eq_map env item with h | ⟨hlen, -⟩
    · cases h
      rfl
    · exact absurd hlen (Nat.lt_irrefl 1)
  · rcases hu.eval_eq_map env item with rfl | ⟨-, hu⟩
    · exact absurd hlen (Nat.lt_irrefl 1)
    · rw [ht, hu]

end Value

/-- The conjuncts of a term that are joined again from the left have the same value as the term, or
the same error, for every item in every environment. Terms that join nothing are the conjuncts of
their conjunction, if there are any. And a term joins its conjuncts, which are at least one and join
nothing themselves. -/
theorem rejoin_faithful :
    (∀ t : Term, ∃ u, conjunction? t.conjuncts = some u
      ∧ ∀ env item, u.eval env item = t.eval env item)
    ∧ (∀ ts : List Term, ts ≠ [] → (∀ t ∈ ts, t.IsConjunct) →
      ∃ u, conjunction? ts = some u ∧ u.conjuncts = ts)
    ∧ ∀ t : Term, Joins t.conjuncts t ∧ t.conjuncts ≠ [] ∧ ∀ u ∈ t.conjuncts, u.IsConjunct := by
  refine ⟨fun t => ?_, fun ts hne hts => ?_, fun t => ?_⟩
  · have ht := joins_conjuncts t
    obtain ⟨u, hconj, hu⟩ := exists_conjunction? ht.ne_nil
    exact ⟨u, hconj, fun env item => hu.eval_eq env item ht⟩
  · obtain ⟨u, hconj, hu⟩ := exists_conjunction? hne
    exact ⟨u, hconj, hu.conjuncts_eq hts⟩
  · have ht := joins_conjuncts t
    exact ⟨ht, ht.ne_nil, fun _ => isConjunct_of_mem_conjuncts⟩

/-- Of three terms that are joined from the right the second is neither true nor false and the third
has no value: in both nestings the error is that of the second. -/
theorem rejoin_faithful_notBoolean :
    let a : Term := .is ⟨[.key "a"]⟩ .any true
    let n : Term := .value (.int 1)
    let b : Term := .name ⟨[.key "b"]⟩
    let t : Term := .and a (.and n b)
    let u : Term := .and (.and a n) b
    conjunction? t.conjuncts = some u ∧ (∀ env item, u.eval env item = t.eval env item)
      ∧ t.eval {} [] = .error (.unsupported (.notBoolean n (.int 1)))
      ∧ [a, n, b] ≠ [] ∧ (∀ v ∈ [a, n, b], v.IsConjunct) ∧ u.conjuncts = [a, n, b] := by
  intro a n b t u
  have hconjuncts : ∀ v ∈ [a, n, b], v.IsConjunct :=
    List.forall_mem_cons.2 ⟨nofun, List.forall_mem_cons.2 ⟨nofun, List.forall_mem_singleton.2 nofun⟩⟩
  obtain ⟨hrejoin, hsplit, -⟩ := rejoin_faithful
  obtain ⟨w, hw, heval⟩ := hrejoin t
  obtain ⟨x, hx, hconj⟩ := hsplit [a, n, b] (List.cons_ne_nil a _) hconjuncts
  have hwu : conjunction? t.conjuncts = some u := rfl
  cases hw.symm.trans hwu
  cases hx.symm.trans (show conjunction? [a, n, b] = some u from rfl)
  exact ⟨hwu, heval, rfl, List.cons_ne_nil a _, hconjuncts, hconj⟩

end TableQuery.Term
