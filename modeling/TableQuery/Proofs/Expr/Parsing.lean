import TableQuery.Proofs.Except
import TableQuery.Proofs.Expr.Grammar

/-!
# What the grammar derives is read

The parser of each level reads the token sequences that the grammar has for it, and the tokens that
follow decide only where it stops.
-/

namespace TableQuery.Parser

open Grammar

section Reads

variable {α β : Type} {m n : Nat} {a : α} {b : β} {rest : List Spanned}

/-- A parser reads `a` and leaves `rest`. -/
def Reads (result : Except Fault (Parsed α n)) (a : α) (rest : List Spanned) : Prop :=
  ∃ h, result = .ok ⟨a, rest, h⟩

/-- What a parser leaves is shorter than its bound. -/
lemma Reads.shorter {result : Except Fault (Parsed α n)} (h : Reads result a rest) :
    rest.length < n := by
  obtain ⟨h, _⟩ := h
  exact h

/-- The bound of what is left is part of what it means to be read. -/
lemma exists_eq_ok_iff {result : Except Fault (Parsed α n)} :
    (∃ h, result = .ok ⟨a, rest, h⟩) ↔ Reads result a rest :=
  Iff.rfl

/-- A parser that succeeds reads its value and leaves its rest. -/
@[simp] lemma reads_ok {p : Parsed α n} : Reads (.ok p) a rest ↔ p.value = a ∧ p.rest = rest := by
  constructor
  · rintro ⟨h, e⟩
    cases e
    exact ⟨rfl, rfl⟩
  · rintro ⟨rfl, rfl⟩
    exact ⟨p.shorter, rfl⟩

/-- To return a value is to read it. -/
@[simp] lemma reads_pure {p : Parsed α n} :
    Reads (pure p) a rest ↔ p.value = a ∧ p.rest = rest :=
  reads_ok

/-- A parser that fails reads nothing. -/
@[simp] lemma not_reads_error {f : Fault} :
    ¬ Reads (.error f : Except Fault (Parsed α n)) a rest :=
  nofun

/-- One parser after another. -/
lemma reads_bind {x : Except Fault (Parsed α m)} {k : Parsed α m → Except Fault (Parsed β n)} :
    Reads (x >>= k) b rest ↔ ∃ a mid h, x = .ok ⟨a, mid, h⟩ ∧ Reads (k ⟨a, mid, h⟩) b rest := by
  constructor
  · rintro ⟨h, e⟩
    obtain ⟨⟨a, mid, hm⟩, hx, hk⟩ := bind_eq_ok_iff.1 e
    exact ⟨a, mid, hm, hx, h, hk⟩
  · rintro ⟨a, mid, hm, hx, h, hk⟩
    exact ⟨h, bind_eq_ok_iff.2 ⟨_, hx, hk⟩⟩

end Reads

section Steps

variable {ts rest : List Spanned} {e left : Expr} {i j : Nat}

/-- A disjunction is a conjunction and what the loop over `or` makes of it. -/
lemma reads_disjunction :
    Reads (disjunction ts) e rest ↔
      ∃ left mid, Reads (conjunction ts) left mid ∧ Reads (disjunctionRest left mid) e rest := by
  rw [disjunction]
  simp only [reads_bind, reads_pure, exists_and_right, exists_eq_ok_iff, exists_eq_right_right,
    exists_eq_right]

/-- The loop over `or` goes on with one more conjunction on its right. -/
lemma reads_disjunctionRest_or :
    Reads (disjunctionRest left (⟨.keyword .or, i⟩ :: ts)) e rest ↔
      ∃ right mid, Reads (conjunction ts) right mid
        ∧ Reads (disjunctionRest (.or left right) mid) e rest := by
  rw [disjunctionRest]
  simp only [reads_bind, reads_pure, exists_and_right, exists_eq_ok_iff, exists_eq_right_right,
    exists_eq_right]

/-- A conjunction is a negation and what the loop over `and` makes of it. -/
lemma reads_conjunction :
    Reads (conjunction ts) e rest ↔
      ∃ left mid, Reads (negation ts) left mid ∧ Reads (conjunctionRest left mid) e rest := by
  rw [conjunction]
  simp only [reads_bind, reads_pure, exists_and_right, exists_eq_ok_iff, exists_eq_right_right,
    exists_eq_right]

/-- The loop over `and` goes on with one more negation on its right. -/
lemma reads_conjunctionRest_and :
    Reads (conjunctionRest left (⟨.keyword .and, i⟩ :: ts)) e rest ↔
      ∃ right mid, Reads (negation ts) right mid
        ∧ Reads (conjunctionRest (.and left right) mid) e rest := by
  rw [conjunctionRest]
  simp only [reads_bind, reads_pure, exists_and_right, exists_eq_ok_iff, exists_eq_right_right,
    exists_eq_right]

/-- Behind `not` stands what is negated. -/
lemma reads_negation_not :
    Reads (negation (⟨.keyword .not, i⟩ :: ts)) e rest ↔
      ∃ a, Reads (negation ts) a rest ∧ .not a = e := by
  rw [negation]
  simp only [reads_bind, reads_pure, exists_and_right, exists_eq_ok_iff, exists_eq_right_right]

/-- A comparison is a sum and what an operator behind it makes of that. -/
lemma reads_comparison :
    Reads (comparison ts) e rest ↔
      ∃ left mid, Reads (sum ts) left mid ∧ Reads (comparisonRest left mid) e rest := by
  rw [comparison]
  simp only [reads_bind, reads_pure, exists_and_right, exists_eq_ok_iff, exists_eq_right_right,
    exists_eq_right]

/-- An operator compares the sum before it with one more sum. -/
lemma reads_comparisonRest_compare {op : Comparison} :
    Reads (comparisonRest left (⟨.compare op, i⟩ :: ts)) e rest ↔
      ∃ right, Reads (sum ts) right rest ∧ .compare op left right = e := by
  rw [comparisonRest]
  simp only [reads_bind, reads_pure, exists_and_right, exists_eq_ok_iff, exists_eq_right_right]

/-- Behind `is not` stands the type that is not to be. -/
lemma reads_comparisonRest_isNot :
    Reads (comparisonRest left (⟨.keyword .is, i⟩ :: ⟨.keyword .not, j⟩ :: ts)) e rest ↔
      ∃ type, Reads (sum ts) type rest ∧ .is left true type = e := by
  rw [comparisonRest]
  simp only [reads_bind, reads_pure, exists_and_right, exists_eq_ok_iff, exists_eq_right_right]

/-- Behind `is` alone stands the type that is to be. -/
lemma reads_comparisonRest_is (h : ∀ j r, ts ≠ ⟨.keyword .not, j⟩ :: r) :
    Reads (comparisonRest left (⟨.keyword .is, i⟩ :: ts)) e rest ↔
      ∃ type, Reads (sum ts) type rest ∧ .is left false type = e := by
  rw [comparisonRest]
  · simp only [reads_bind, reads_pure, exists_and_right, exists_eq_ok_iff, exists_eq_right_right]
  · exact h

/-- A sum is an operand and what the loop over the arithmetic operators makes of it. -/
lemma reads_sum :
    Reads (sum ts) e rest ↔
      ∃ left mid, Reads (minus ts) left mid ∧ Reads (sumRest left mid) e rest := by
  rw [sum]
  simp only [reads_bind, reads_pure, exists_and_right, exists_eq_ok_iff, exists_eq_right_right,
    exists_eq_right]

/-- The loop over the arithmetic operators goes on with one more operand on its right. -/
lemma reads_sumRest_arith {op : Arith} :
    Reads (sumRest left (⟨.arith op, i⟩ :: ts)) e rest ↔
      ∃ right mid, Reads (minus ts) right mid
        ∧ Reads (sumRest (.arith op left right) mid) e rest := by
  rw [sumRest]
  simp only [reads_bind, reads_pure, exists_and_right, exists_eq_ok_iff, exists_eq_right_right,
    exists_eq_right]

/-- Behind a sign stands what it is put before. -/
lemma reads_minus_sub :
    Reads (minus (⟨.arith .sub, i⟩ :: ts)) e rest ↔
      ∃ a, Reads (minus ts) a rest ∧ .neg a = e := by
  rw [minus]
  simp only [reads_bind, reads_pure, exists_and_right, exists_eq_ok_iff, exists_eq_right_right]

/-- A numeral between brackets is an index if it fits 64 bits. -/
lemma reads_bracketStep_index {numeral : String} {index : UInt64}
    (h : Text.uint64OfDigits? numeral.toList = some index) :
    Reads (bracketStep (⟨.number numeral, i⟩ :: ⟨.closeBracket, j⟩ :: ts)) (.index index) ts := by
  dsimp only [bracketStep]
  rw [h]
  exact reads_ok.2 ⟨rfl, rfl⟩

/-- An opening bracket begins a step that the brackets hold, with more steps after it. -/
lemma reads_steps_bracket {path : List Step} :
    Reads (steps (⟨.openBracket, i⟩ :: ts)) path rest ↔
      ∃ step mid more, Reads (bracketStep ts) step mid ∧ Reads (steps mid) more rest
        ∧ step :: more = path := by
  rw [steps]
  simp only [reads_bind, reads_pure, exists_and_right, exists_eq_ok_iff, exists_eq_right_right,
    exists_and_left]

/-- A point with a name behind it is a step by that name, with more steps after it. -/
lemma reads_steps_dot {path : List Step} {name : String} :
    Reads (steps (⟨.dot, i⟩ :: ⟨.identifier name, j⟩ :: ts)) path rest ↔
      ∃ more, Reads (steps ts) more rest ∧ .key name :: more = path := by
  rw [steps]
  simp only [reads_bind, reads_pure, exists_and_right, exists_eq_ok_iff, exists_eq_right_right]

/-- Arguments are one argument and the others. -/
lemma reads_arguments {args : List Expr} :
    Reads (arguments ts) args rest ↔
      ∃ a mid more, Reads (disjunction ts) a mid ∧ Reads (argumentsRest mid) more rest
        ∧ a :: more = args := by
  rw [arguments]
  simp only [reads_bind, reads_pure, exists_and_right, exists_eq_ok_iff, exists_eq_right_right,
    exists_and_left]

/-- Behind a comma stand more arguments. -/
lemma reads_argumentsRest_comma {args : List Expr} :
    Reads (argumentsRest (⟨.comma, i⟩ :: ts)) args rest ↔ Reads (arguments ts) args rest := by
  rw [argumentsRest]
  simp only [reads_bind, reads_pure, exists_and_right, exists_eq_ok_iff, exists_eq_right_right,
    exists_eq_right]

/-- A closing parenthesis ends the arguments. -/
lemma reads_argumentsRest_close {args : List Expr} :
    Reads (argumentsRest (⟨.closeParen, i⟩ :: ts)) args rest ↔ [] = args ∧ ts = rest := by
  rw [argumentsRest]
  exact reads_ok

/-- A group ends with a closing parenthesis and nothing else. -/
lemma reads_closed :
    Reads (closed left ts) e rest ↔ left = e ∧ ∃ i, ts = ⟨.closeParen, i⟩ :: rest := by
  unfold closed
  split
  next => simp
  next h =>
    refine iff_of_false not_reads_error ?_
    rintro ⟨_, i, rfl⟩
    exact h i rest rfl

/-- An expression between parentheses is read as it is. -/
lemma reads_primary_group :
    Reads (primary (⟨.openParen, i⟩ :: ts)) e rest ↔
      ∃ j, Reads (disjunction ts) e (⟨.closeParen, j⟩ :: rest) := by
  rw [primary]
  simp only [reads_bind, reads_pure, exists_and_right, exists_eq_ok_iff, reads_closed,
    exists_eq_right_right, exists_eq_right]
  constructor
  · rintro ⟨_, _, hread, rfl, j, rfl⟩
    exact ⟨j, hread⟩
  · rintro ⟨j, hread⟩
    exact ⟨e, _, hread, rfl, j, rfl⟩

/-- A numeral is the literal that it writes. -/
lemma reads_primary_number {numeral : String} {l : Literal}
    (h : Literal.ofNumeral? numeral = some l) :
    Reads (primary (⟨.number numeral, i⟩ :: ts)) (.literal l) ts := by
  rw [primary, h]
  exact reads_ok.2 ⟨rfl, rfl⟩

/-- A name with an opening parenthesis behind it calls a function with arguments. -/
lemma reads_primary_call {function : String} (h : ∀ k r, ts ≠ ⟨.closeParen, k⟩ :: r) :
    Reads (primary (⟨.identifier function, i⟩ :: ⟨.openParen, j⟩ :: ts)) e rest ↔
      ∃ args, Reads (arguments ts) args rest ∧ .call function args = e := by
  rw [primary]
  · simp only [reads_bind, reads_pure, exists_and_right, exists_eq_ok_iff, exists_eq_right_right]
  · exact h

/-- A name without an opening parenthesis behind it begins a path. -/
lemma reads_primary_name {name : String} (h : ∀ j r, ts ≠ ⟨.openParen, j⟩ :: r) :
    Reads (primary (⟨.identifier name, i⟩ :: ts)) e rest ↔
      ∃ more, Reads (steps ts) more rest ∧ .name ⟨.key name :: more⟩ = e := by
  rw [primary]
  · simp only [reads_bind, reads_pure, exists_and_right, exists_eq_ok_iff, exists_eq_right_right]
  · exact fun j _ r e => h j _ e
  · exact h

end Steps

/-- The level from which on a token behind an expression would go on with it. -/
def joins : Token → Nat
  | .keyword .or => 1
  | .keyword .and => 2
  | .keyword .is | .compare _ => 4
  | .arith _ => 5
  | .dot | .openBracket | .openParen => 7
  | _ => 0

/-- Tokens do not go on with an expression of a level. -/
def Follows (k : Nat) (rest : List Spanned) : Prop :=
  ∀ t r, rest = t :: r → joins t.token < k

/-- Tokens that do not go on with an expression do not go on with a tighter one. -/
lemma Follows.tighten {k j : Nat} {rest : List Spanned} (h : Follows k rest) (hk : k ≤ j) :
    Follows j rest :=
  fun t r e => Nat.lt_of_lt_of_le (h t r e) hk

/-- A token that joins at a looser level does not go on with an expression. -/
lemma follows_cons {k i : Nat} {t : Token} {rest : List Spanned} (ht : joins t < k) :
    Follows k (⟨t, i⟩ :: rest) := by
  rintro _ _ ⟨⟩
  exact ht

section Stops

variable {rest : List Spanned} {left : Expr}

/-- A token that joins at the level of an expression or a tighter one goes on with it. -/
lemma not_follows {k i : Nat} {t : Token} (ht : k ≤ joins t) : ¬ Follows k (⟨t, i⟩ :: rest) :=
  fun h => Nat.not_lt_of_le ht (h _ _ rfl)

/-- The loop over `or` ends where nothing goes on with a disjunction. -/
lemma reads_disjunctionRest_stop (h : Follows 1 rest) :
    Reads (disjunctionRest left rest) left rest := by
  rw [disjunctionRest.eq_def]
  split
  · exact absurd h (not_follows (by decide))
  · exact reads_ok.2 ⟨rfl, rfl⟩

/-- The loop over `and` ends where nothing goes on with a conjunction. -/
lemma reads_conjunctionRest_stop (h : Follows 2 rest) :
    Reads (conjunctionRest left rest) left rest := by
  rw [conjunctionRest.eq_def]
  split
  · exact absurd h (not_follows (by decide))
  · exact reads_ok.2 ⟨rfl, rfl⟩

/-- A sum stays as it is where nothing goes on with a comparison. -/
lemma reads_comparisonRest_stop (h : Follows 4 rest) :
    Reads (comparisonRest left rest) left rest := by
  rw [comparisonRest.eq_def]
  split
  · exact absurd h (not_follows (by decide))
  · exact absurd h (not_follows (by decide))
  · exact absurd h (not_follows (Nat.le_refl 4))
  · exact reads_ok.2 ⟨rfl, rfl⟩

/-- The loop over the arithmetic operators ends where nothing goes on with a sum. -/
lemma reads_sumRest_stop (h : Follows 5 rest) : Reads (sumRest left rest) left rest := by
  rw [sumRest.eq_def]
  split
  · exact absurd h (not_follows (Nat.le_refl 5))
  · exact reads_ok.2 ⟨rfl, rfl⟩

/-- A path ends where nothing goes on with it. -/
lemma reads_steps_stop (h : Follows 7 rest) : Reads (steps rest) [] rest := by
  rw [steps.eq_def]
  split
  · exact absurd h (not_follows (by decide))
  · exact absurd h (not_follows (by decide))
  · exact absurd h (not_follows (by decide))
  · exact reads_ok.2 ⟨rfl, rfl⟩

end Stops

/-- Tokens are the same wherever they are said to stand. -/
lemma map_token_placed (ts : List Token) (i : Nat) :
    (ts.map fun t => (⟨t, i⟩ : Spanned)).map Spanned.token = ts := by
  rw [List.map_map]
  exact List.map_id ts

/-- Tokens that begin with one begin with it at some place. -/
lemma map_token_eq_cons {us : List Spanned} {t : Token} {ts : List Token}
    (h : us.map Spanned.token = t :: ts) :
    ∃ i vs, us = ⟨t, i⟩ :: vs ∧ vs.map Spanned.token = ts := by
  obtain ⟨⟨_, i⟩, vs, rfl, rfl, rfl⟩ := List.map_eq_cons_iff.1 h
  exact ⟨i, vs, rfl, rfl⟩

/-- Tokens with one among them are split around its place. -/
lemma map_token_eq_append_cons {us : List Spanned} {t : Token} {ts ts' : List Token}
    (h : us.map Spanned.token = ts ++ t :: ts') :
    ∃ vs i ws, us = vs ++ ⟨t, i⟩ :: ws ∧ vs.map Spanned.token = ts
      ∧ ws.map Spanned.token = ts' := by
  obtain ⟨vs, xs, rfl, hvs, hxs⟩ := List.map_eq_append_iff.1 h
  obtain ⟨i, ws, rfl, hws⟩ := map_token_eq_cons hxs
  exact ⟨vs, i, ws, rfl, hvs, hws⟩

/-- A step is read from its tokens. -/
lemma reads_steps_step {us rest : List Spanned} {step : Step} (h : IsStep (us.map Spanned.token) step)
    {more : List Step} {r : List Spanned} (hmore : Reads (steps rest) more r) :
    Reads (steps (us ++ rest)) (step :: more) r := by
  generalize hts : us.map Spanned.token = ts at h
  cases h with
  | name =>
    obtain ⟨_, vs, rfl, hvs⟩ := map_token_eq_cons hts
    obtain ⟨_, ws, rfl, hws⟩ := map_token_eq_cons hvs
    cases List.map_eq_nil_iff.1 hws
    exact reads_steps_dot.2 ⟨more, hmore, rfl⟩
  | key =>
    obtain ⟨_, vs, rfl, hvs⟩ := map_token_eq_cons hts
    obtain ⟨_, ws, rfl, hws⟩ := map_token_eq_cons hvs
    obtain ⟨_, xs, rfl, hxs⟩ := map_token_eq_cons hws
    cases List.map_eq_nil_iff.1 hxs
    exact reads_steps_bracket.2 ⟨_, rest, more, reads_ok.2 ⟨rfl, rfl⟩, hmore, rfl⟩
  | index hi =>
    obtain ⟨_, vs, rfl, hvs⟩ := map_token_eq_cons hts
    obtain ⟨_, ws, rfl, hws⟩ := map_token_eq_cons hvs
    obtain ⟨_, xs, rfl, hxs⟩ := map_token_eq_cons hws
    cases List.map_eq_nil_iff.1 hxs
    exact reads_steps_bracket.2 ⟨_, rest, more, reads_bracketStep_index hi, hmore, rfl⟩

/-- Steps are read from their tokens. -/
lemma reads_steps {ts : List Token} {path : List Step} (h : AreSteps ts path) {us rest : List Spanned}
    (hus : us.map Spanned.token = ts) (hrest : Follows 7 rest) :
    Reads (steps (us ++ rest)) path rest := by
  induction h generalizing us with
  | nil =>
    cases List.map_eq_nil_iff.1 hus
    exact reads_steps_stop hrest
  | cons hstep _ ih =>
    obtain ⟨vs, ws, rfl, rfl, hws⟩ := List.map_eq_append_iff.1 hus
    rw [List.append_assoc]
    exact reads_steps_step hstep (ih hws)

/-- The parser of a level reads an expression from its tokens. At a level whose operators group to
the left, it has then still to read what follows. -/
def Parses (us rest : List Spanned) (e : Expr) : Nat → Prop
  | 0 => True
  | 1 => Follows 2 rest →
    ∀ e' r, Reads (disjunctionRest e rest) e' r → Reads (disjunction (us ++ rest)) e' r
  | 2 => Follows 3 rest →
    ∀ e' r, Reads (conjunctionRest e rest) e' r → Reads (conjunction (us ++ rest)) e' r
  | 3 => Follows 3 rest → Reads (negation (us ++ rest)) e rest
  | 4 => Follows 4 rest → Reads (comparison (us ++ rest)) e rest
  | 5 => Follows 6 rest →
    ∀ e' r, Reads (sumRest e rest) e' r → Reads (sum (us ++ rest)) e' r
  | 6 => Follows 6 rest → Reads (minus (us ++ rest)) e rest
  | 7 => Follows 7 rest → Reads (primary (us ++ rest)) e rest
  | _ => False

section Parses

variable {us rest : List Spanned} {e : Expr}

/-- What parses as a disjunction is read as one in front of what does not go on with it. -/
lemma Parses.disjunction (h : Parses us rest e 1) (hrest : Follows 1 rest) :
    Reads (disjunction (us ++ rest)) e rest :=
  h (hrest.tighten (by decide)) _ _ (reads_disjunctionRest_stop hrest)

/-- What parses as a conjunction is read as one in front of what does not go on with it. -/
lemma Parses.conjunction (h : Parses us rest e 2) (hrest : Follows 2 rest) :
    Reads (conjunction (us ++ rest)) e rest :=
  h (hrest.tighten (by decide)) _ _ (reads_conjunctionRest_stop hrest)

/-- What parses as a sum is read as one in front of what does not go on with it. -/
lemma Parses.sum (h : Parses us rest e 5) (hrest : Follows 5 rest) :
    Reads (sum (us ++ rest)) e rest :=
  h (hrest.tighten (by decide)) _ _ (reads_sumRest_stop hrest)

/-- A level without an operator is that of the tighter one. -/
lemma Parses.loosen {k : Nat} (hbegins : Begins (k + 1) (us.map Spanned.token))
    (h : Parses us rest e (k + 1)) : Parses us rest e k := by
  obtain ⟨t, ts, hts, -, hnot, hsub⟩ := hbegins
  obtain ⟨i, vs, rfl, -⟩ := map_token_eq_cons hts
  -- only the levels of `not` and of the minus sign look at the first token
  match k, h with
  | 0, _ => trivial
  | 1, h => exact fun hrest _ _ hr => reads_disjunction.2 ⟨_, _, Parses.conjunction h hrest, hr⟩
  | 2, h => exact fun hrest _ _ hr => reads_conjunction.2 ⟨_, _, h hrest, hr⟩
  | 3, h =>
    intro hrest
    have hread := h (hrest.tighten (by decide))
    rw [List.cons_append, negation]
    · exact hread
    · rintro _ _ ⟨⟩
      exact hnot (by decide) rfl
  | 4, h =>
    exact fun hrest => reads_comparison.2
      ⟨_, _, Parses.sum h (hrest.tighten (by decide)), reads_comparisonRest_stop hrest⟩
  | 5, h => exact fun hrest _ _ hr => reads_sum.2 ⟨_, _, h hrest, hr⟩
  | 6, h =>
    intro hrest
    have hread := h (hrest.tighten (by decide))
    rw [List.cons_append, minus]
    · exact hread
    · rintro _ _ ⟨⟩
      exact hsub (by decide) rfl
  | 7, h => exact h.elim
  | _ + 8, h => exact h.elim

end Parses

/-- The parsers read every expression of the grammar. -/
lemma parses_of_derives {k : Nat} {ts : List Token} {e : Expr} (h : Derives k ts e) :
    ∀ {us rest : List Spanned}, us.map Spanned.token = ts → Parses us rest e k := by
  induction h using Derives.rec (motive_2 := fun ts args _ => ∀ us rest i,
    us.map Spanned.token = ts → Reads (arguments (us ++ ⟨.closeParen, i⟩ :: rest)) args rest) with
  | tighter h ih =>
    intro us rest hus
    subst hus
    exact (ih rfl).loosen h.begins
  | or _ _ iha ihb =>
    intro us rest hus hrest e' r hr
    obtain ⟨vs, i, ws, rfl, hvs, hws⟩ := map_token_eq_append_cons hus
    rw [List.append_assoc]
    refine iha hvs (follows_cons (by decide)) _ _ ?_
    exact reads_disjunctionRest_or.2 ⟨_, rest, (ihb hws).conjunction hrest, hr⟩
  | and _ _ iha ihb =>
    intro us rest hus hrest e' r hr
    obtain ⟨vs, i, ws, rfl, hvs, hws⟩ := map_token_eq_append_cons hus
    rw [List.append_assoc]
    refine iha hvs (follows_cons (by decide)) _ _ ?_
    exact reads_conjunctionRest_and.2 ⟨_, rest, ihb hws hrest, hr⟩
  | not _ ih =>
    intro us rest hus hrest
    obtain ⟨i, vs, rfl, hvs⟩ := map_token_eq_cons hus
    exact reads_negation_not.2 ⟨_, ih hvs hrest, rfl⟩
  | compare _ _ iha ihb =>
    intro us rest hus hrest
    obtain ⟨vs, i, ws, rfl, hvs, hws⟩ := map_token_eq_append_cons hus
    rw [List.append_assoc]
    refine reads_comparison.2 ⟨_, _, (iha hvs).sum (follows_cons (Nat.lt_succ_self 4)), ?_⟩
    exact reads_comparisonRest_compare.2 ⟨_, (ihb hws).sum (hrest.tighten (by decide)), rfl⟩
  | is _ hb iha ihb =>
    intro us rest hus hrest
    obtain ⟨vs, i, ws, rfl, hvs, hws⟩ := map_token_eq_append_cons hus
    rw [List.append_assoc]
    refine reads_comparison.2 ⟨_, _, (iha hvs).sum (follows_cons (by decide)), ?_⟩
    -- the type does not begin with `not`, which would be taken for a part of the operator
    obtain ⟨t, _, hts, -, hnot, -⟩ := hb.begins
    obtain ⟨_, _, rfl, -⟩ := map_token_eq_cons (hws.trans hts)
    have hread := (ihb hws).sum (hrest.tighten (by decide))
    refine (reads_comparisonRest_is ?_).2 ⟨_, hread, rfl⟩
    rintro _ _ ⟨⟩
    exact hnot (by decide) rfl
  | isNot _ _ iha ihb =>
    intro us rest hus hrest
    obtain ⟨vs, i, xs, rfl, hvs, hxs⟩ := map_token_eq_append_cons hus
    obtain ⟨j, ws, rfl, hws⟩ := map_token_eq_cons hxs
    rw [List.append_assoc]
    refine reads_comparison.2 ⟨_, _, (iha hvs).sum (follows_cons (by decide)), ?_⟩
    exact reads_comparisonRest_isNot.2 ⟨_, (ihb hws).sum (hrest.tighten (by decide)), rfl⟩
  | @arith op _ _ _ _ _ _ iha ihb =>
    -- the left operand is read first, and the loop behind it goes on with this operator
    intro us rest hus hrest e' r hr
    obtain ⟨vs, i, ws, rfl, hvs, hws⟩ := map_token_eq_append_cons hus
    rw [List.append_assoc]
    have hop : Follows 6 (⟨.arith op, i⟩ :: (ws ++ rest)) := follows_cons (Nat.lt_succ_self 5)
    refine iha hvs hop _ _ ?_
    exact reads_sumRest_arith.2 ⟨_, rest, ihb hws hrest, hr⟩
  | neg _ ih =>
    intro us rest hus hrest
    obtain ⟨i, vs, rfl, hvs⟩ := map_token_eq_cons hus
    exact reads_minus_sub.2 ⟨_, ih hvs hrest, rfl⟩
  | group _ ih =>
    intro us rest hus _
    obtain ⟨i, xs, rfl, hxs⟩ := map_token_eq_cons hus
    obtain ⟨vs, j, zs, rfl, hvs, hzs⟩ := map_token_eq_append_cons hxs
    cases List.map_eq_nil_iff.1 hzs
    rw [List.cons_append, List.append_assoc]
    exact reads_primary_group.2 ⟨j, (ih hvs).disjunction (follows_cons (by decide))⟩
  | number hl =>
    intro us rest hus _
    obtain ⟨i, vs, rfl, hvs⟩ := map_token_eq_cons hus
    cases List.map_eq_nil_iff.1 hvs
    exact reads_primary_number hl
  | string | true | false | null =>
    intro us rest hus _
    obtain ⟨i, vs, rfl, hvs⟩ := map_token_eq_cons hus
    cases List.map_eq_nil_iff.1 hvs
    rw [List.cons_append, primary]
    exact reads_ok.2 ⟨rfl, rfl⟩
  | name hsteps =>
    intro us rest hus hrest
    obtain ⟨i, vs, rfl, hvs⟩ := map_token_eq_cons hus
    refine (reads_primary_name ?_).2 ⟨_, reads_steps hsteps hvs hrest, rfl⟩
    intro j r e
    rcases hsteps.begins with rfl | ⟨t, _, rfl, ht⟩
    · cases List.map_eq_nil_iff.1 hvs
      cases e
      exact not_follows (Nat.le_refl 7) hrest
    · obtain ⟨_, _, rfl, -⟩ := map_token_eq_cons hvs
      cases e
      exact ht rfl
  | constant =>
    intro us rest hus _
    obtain ⟨i, vs, rfl, hvs⟩ := map_token_eq_cons hus
    obtain ⟨j, ws, rfl, hws⟩ := map_token_eq_cons hvs
    obtain ⟨k, xs, rfl, hxs⟩ := map_token_eq_cons hws
    cases List.map_eq_nil_iff.1 hxs
    rw [List.cons_append, List.cons_append, List.cons_append, primary]
    exact reads_ok.2 ⟨rfl, rfl⟩
  | call hargs ih =>
    intro us rest hus _
    obtain ⟨i, xs, rfl, hxs⟩ := map_token_eq_cons hus
    obtain ⟨j, ys, rfl, hys⟩ := map_token_eq_cons hxs
    obtain ⟨vs, k, ws, rfl, hvs, hws⟩ := map_token_eq_append_cons hys
    cases List.map_eq_nil_iff.1 hws
    -- the arguments do not begin with the parenthesis that ends them
    obtain ⟨t, _, hts, hclose, -⟩ := hargs.begins
    obtain ⟨_, _, rfl, -⟩ := map_token_eq_cons (hvs.trans hts)
    rw [List.cons_append, List.cons_append, List.append_assoc]
    refine (reads_primary_call ?_).2 ⟨_, ih _ _ _ hvs, rfl⟩
    rintro _ _ ⟨⟩
    exact hclose rfl
  | last _ ih us rest i hus =>
    refine reads_arguments.2 ⟨_, _, [], (ih hus).disjunction (follows_cons (by decide)), ?_, rfl⟩
    exact reads_argumentsRest_close.2 ⟨rfl, rfl⟩
  | more _ _ ih ihs us rest i hus =>
    obtain ⟨vs, j, ws, rfl, hvs, hws⟩ := map_token_eq_append_cons hus
    rw [List.append_assoc]
    refine reads_arguments.2 ⟨_, _, _, (ih hvs).disjunction (follows_cons (by decide)), ?_, rfl⟩
    exact reads_argumentsRest_comma.2 (ihs _ _ _ hws)

end TableQuery.Parser
