import TableQuery.Proofs.Expr.Lookahead

/-!
# What the parser accepts

Whatever the parser reads is an expression of the grammar, so that it accepts exactly the grammar.
Where it fails, the tokens that it has taken belong to an expression, and none begins with them and
the next one.
-/

namespace TableQuery.Parser

open Grammar

/-- What is read is derived from the tokens in front of the rest. -/
lemma derives_of_reads {ts rest : List Spanned} {e : Expr} (h : Reads (disjunction ts) e rest) :
    ∃ us, ts = us ++ rest ∧ Derives 1 (us.map Spanned.token) e := by
  obtain ⟨us, rest', v, rfl, hp, hv⟩ := heeds_disjunction ts
  cases (hp rest' rfl).symm.trans (outcome_eq_some_iff.2 h)
  exact ⟨us, rfl, hv⟩

/-- The parser of whole sequences gives what the parser of disjunctions reads to the end. -/
lemma whole_eq_ok_iff_reads {ts : List Spanned} {e : Expr} :
    whole ts = .ok e ↔ Reads (disjunction ts) e [] := by
  unfold whole
  constructor
  · intro h
    obtain ⟨⟨a, rest, hlt⟩, hread, h⟩ := bind_eq_ok_iff.1 h
    dsimp only at h
    split at h
    next hrest =>
      cases h
      cases List.isEmpty_iff.1 hrest
      exact ⟨hlt, hread⟩
    next => cases h
  · rintro ⟨hlt, hread⟩
    rw [hread]
    rfl

/-- The parser accepts exactly the token sequences of the grammar, with the expressions that the
grammar has for them. -/
lemma whole_eq_ok_iff {ts : List Spanned} {e : Expr} :
    whole ts = .ok e ↔ Derives 1 (ts.map Spanned.token) e := by
  rw [whole_eq_ok_iff_reads]
  constructor
  · intro h
    obtain ⟨us, rfl, hus⟩ := derives_of_reads h
    rw [List.append_nil]
    exact hus
  · intro h
    have hparses : Parses ts [] e 1 := parses_of_derives h rfl
    have hread := hparses.disjunction nofun
    rw [List.append_nil] at hread
    exact hread

/-- The parser of whole sequences fails where that of disjunctions does, or at what it leaves. -/
lemma outcome_of_whole_eq_error {ts : List Spanned} {f : Fault} (h : whole ts = .error f) :
    ∃ v, outcome (disjunction ts) = (v, f.rest) ∧ (v = none ∨ f.rest ≠ []) := by
  unfold whole at h
  rcases bind_eq_error_iff.1 h with h | ⟨⟨a, rest, hlt⟩, hread, h⟩
  · rw [h]
    exact ⟨none, rfl, .inl rfl⟩
  · dsimp only at h
    split at h
    next => cases h
    next hrest =>
      cases h
      rw [hread]
      exact ⟨some a, rfl, .inr fun hnil => hrest (List.isEmpty_iff.2 hnil)⟩

/-- Where the parser fails, the tokens that it has taken belong to an expression, but not with the
next one, or not by themselves if there is none. -/
lemma viable_of_whole_eq_error {ts : List Spanned} {f : Fault} (h : whole ts = .error f) :
    ∃ us, ts = us ++ f.rest ∧ Viable (us.map Spanned.token)
      ∧ (∀ t, next f.rest = some t → ¬ Viable (us.map Spanned.token ++ [t]))
      ∧ (f.rest = [] → ¬ ∃ e, Derives 1 (us.map Spanned.token) e) := by
  obtain ⟨v, hv, hstop⟩ := outcome_of_whole_eq_error h
  obtain ⟨us, rest, v', rfl, hp, hus⟩ := heeds_disjunction ts
  cases (hp rest rfl).symm.trans hv
  refine ⟨us, rfl, ?_, ?_, ?_⟩
  · cases v with
    | none => exact hus
    | some e => exact ⟨[], e, by rwa [List.append_nil]⟩
  · rintro t ht ⟨vs, e, he⟩
    -- the parser would fail at this token whatever followed it
    have hread := hp (⟨t, 0⟩ :: vs.map fun t => ⟨t, 0⟩) ht.symm
    have hwhole : whole (us ++ ⟨t, 0⟩ :: vs.map fun t => ⟨t, 0⟩) = .ok e := by
      rw [whole_eq_ok_iff, List.map_append, List.map_cons, map_token_placed]
      rwa [List.append_assoc, List.singleton_append] at he
    cases hread.symm.trans (outcome_eq_some_iff.2 (whole_eq_ok_iff_reads.1 hwhole))
  · rintro hnil ⟨e, he⟩
    rw [hnil, List.append_nil] at h
    rw [whole_eq_ok_iff.2 he] at h
    cases h

end TableQuery.Parser
