import TableQuery.Proofs.Expr.Parsing

/-!
# What the parsers look at

A parser decides by the tokens that it has taken and the one in front of it. So it stops at the same
token whatever follows that token, and the tokens before it belong to an expression.
-/

namespace TableQuery.Parser

open Grammar

/-- What a parser reads, if it reads anything, and the tokens that it leaves or fails at. -/
def outcome {α : Type} {n : Nat} : Except Fault (Parsed α n) → Option α × List Spanned
  | .ok p => (some p.value, p.rest)
  | .error f => (none, f.rest)

/-- A parser and, if it reads something, another one after it. -/
def andThen {α β : Type} (p : List Spanned → Option α × List Spanned)
    (k : α → List Spanned → Option β × List Spanned) (ts : List Spanned) :
    Option β × List Spanned :=
  match p ts with
  | (some a, rest) => k a rest
  | (none, rest) => (none, rest)

/-- The token in front of a parser. -/
def next (ts : List Spanned) : Option Token :=
  ts.head?.map Spanned.token

section Outcome

variable {α β : Type} {m n : Nat} {a : α} {ts rest : List Spanned} {t : Token}

/-- What a parser reads is its outcome. -/
lemma outcome_eq_some_iff {x : Except Fault (Parsed α n)} :
    outcome x = (some a, rest) ↔ Reads x a rest := by
  cases x with
  | error f => exact iff_of_false nofun not_reads_error
  | ok p =>
    rw [reads_ok, outcome, Prod.mk.injEq, Option.some.injEq]

/-- One parser after another. -/
lemma outcome_bind {p : List Spanned → Option α × List Spanned} {x : Except Fault (Parsed α m)}
    {f : Parsed α m → Except Fault (Parsed β n)} {k : α → List Spanned → Option β × List Spanned}
    (hx : outcome x = p ts) (hf : ∀ a rest hlt, outcome (f ⟨a, rest, hlt⟩) = k a rest) :
    outcome (x >>= f) = andThen p k ts := by
  rw [andThen, ← hx]
  cases x with
  | error e => rfl
  | ok r => exact hf r.value r.rest r.shorter

/-- To put the value of a parser under another bound does not change its outcome. -/
lemma outcome_last {x : Except Fault (Parsed α m)} {f : Parsed α m → Except Fault (Parsed α n)}
    (hf : ∀ a rest hlt, outcome (f ⟨a, rest, hlt⟩) = (some a, rest)) :
    outcome (x >>= f) = outcome x := by
  cases x with
  | error e => rfl
  | ok r => exact hf r.value r.rest r.shorter

/-- The token in front is that of the first one that is left. -/
lemma next_eq_some_iff : next ts = some t ↔ ∃ i r, ts = ⟨t, i⟩ :: r := by
  cases ts with
  | nil => simp [next]
  | cons s r =>
    obtain ⟨u, i⟩ := s
    simp [next, eq_comm]

/-- What follows other tokens is not in front of a parser. -/
lemma next_append {rest' : List Spanned} (h : next rest' = next rest) (us : List Spanned) :
    next (us ++ rest') = next (us ++ rest) := by
  cases us with
  | nil => exact h
  | cons => rfl

end Outcome

/-- What is behind the first token is shorter. -/
lemma length_lt_of_eq_cons {ts r : List Spanned} {t : Spanned} (h : ts = t :: r) :
    r.length < ts.length := by
  rw [h]
  exact Nat.lt_succ_self r.length

section Heeds

variable {α β : Type} {L L' M : List Token → α → Prop} {ts rest : List Spanned}
  {p q : List Spanned → Option α × List Spanned} {t : Spanned} {a : α}

/-- A parser of the sequences of `L` takes some of the tokens in front of it and stops at the same
token whatever follows that one. What it has taken is a sequence of `L` if it reads something, and
otherwise the beginning of one. -/
def Heeds (L : List Token → α → Prop) (p : List Spanned → Option α × List Spanned)
    (ts : List Spanned) : Prop :=
  ∃ us rest v, ts = us ++ rest
    ∧ (∀ rest', next rest' = next rest → p (us ++ rest') = (v, rest'))
    ∧ match v with
      | some a => L (us.map Spanned.token) a
      | none => ∃ vs a, L (us.map Spanned.token ++ vs) a

/-- A parser that takes nothing. -/
lemma heeds_stop (h : ∀ ts', next ts' = next ts → p ts' = (some a, ts')) (ha : L [] a) :
    Heeds L p ts :=
  ⟨[], ts, some a, rfl, h, ha⟩

/-- A parser that fails at the token in front of it. -/
lemma heeds_fail (h : ∀ ts', next ts' = next ts → p ts' = (none, ts')) (ha : ∃ vs a, L vs a) :
    Heeds L p ts :=
  ⟨[], ts, none, rfl, h, ha⟩

/-- A parser that fails at a certain token, wherever that stands and whatever is behind it. -/
lemma heeds_fail_at {t : Token} (hts : next ts = some t)
    (h : ∀ i r, p (⟨t, i⟩ :: r) = (none, ⟨t, i⟩ :: r)) (ha : ∃ vs a, L vs a) : Heeds L p ts := by
  refine heeds_fail (fun ts' hnext => ?_) ha
  obtain ⟨i, r, rfl⟩ := next_eq_some_iff.1 (hnext.trans hts)
  exact h i r

/-- A parser that fails at the end of the tokens. -/
lemma heeds_fail_end (hts : next ts = none) (h : p [] = (none, [])) (ha : ∃ vs a, L vs a) :
    Heeds L p ts := by
  refine heeds_fail (fun ts' hnext => ?_) ha
  cases ts' with
  | nil => exact h
  | cons => exact absurd (hnext.trans hts) nofun

/-- A parser that takes a token and goes on as another one, which the token behind it may decide. -/
lemma heeds_cons (h : Heeds (fun us => L (t.token :: us)) q ts)
    (hp : ∀ ts', next ts' = next ts → p (t :: ts') = q ts') : Heeds L p (t :: ts) := by
  obtain ⟨us, rest, v, rfl, hq, hv⟩ := h
  refine ⟨t :: us, rest, v, rfl, fun rest' hrest => ?_, hv⟩
  rw [List.cons_append, hp _ (next_append hrest us), hq rest' hrest]

/-- A parser that takes a token. -/
lemma heeds_leaf (hp : ∀ ts', p (t :: ts') = (some a, ts')) (ha : L [t.token] a) :
    Heeds L p (t :: ts) :=
  heeds_cons (heeds_stop (fun _ _ => rfl) ha) fun ts' _ => hp ts'

/-- A parser that goes on as another one, which the token in front of it may decide. -/
lemma Heeds.turn (h : Heeds L q ts) (hp : ∀ ts', next ts' = next ts → p ts' = q ts') :
    Heeds L p ts := by
  obtain ⟨us, rest, v, rfl, hq, hv⟩ := h
  refine ⟨us, rest, v, rfl, fun rest' hrest => ?_, hv⟩
  rw [hp _ (next_append hrest us), hq rest' hrest]

/-- A parser after another one. -/
lemma Heeds.bind {M : List Token → β → Prop} {k : α → List Spanned → Option β × List Spanned}
    (h : Heeds L p ts)
    (hk : ∀ us a mid, p ts = (some a, mid) → L us a → Heeds (fun vs => M (us ++ vs)) (k a) mid)
    (hM : ∀ us a, L us a → ∃ vs b, M (us ++ vs) b) :
    Heeds M (andThen p k) ts := by
  obtain ⟨us, rest, v, rfl, hp, hv⟩ := h
  cases v with
  | none =>
    obtain ⟨vs, a, ha⟩ := hv
    obtain ⟨ws, b, hb⟩ := hM _ a ha
    refine ⟨us, rest, none, rfl, fun rest' hrest => ?_, vs ++ ws, b, ?_⟩
    · rw [andThen, hp rest' hrest]
    · rwa [← List.append_assoc]
  | some a =>
    obtain ⟨vs, rest', v, rfl, hk, hv⟩ := hk _ a rest (hp rest rfl) hv
    refine ⟨us ++ vs, rest', v, by rw [List.append_assoc], fun rest'' hrest => ?_, ?_⟩
    · rw [List.append_assoc, andThen, hp _ (next_append hrest vs)]
      exact hk rest'' hrest
    · rw [List.map_append]
      simpa only [List.append_assoc] using hv

/-- A parser whose value another one is made of. -/
lemma Heeds.map {M : List Token → β → Prop} {f : α → β} (h : Heeds L p ts)
    (hM : ∀ us a, L us a → M us (f a)) :
    Heeds M (andThen p fun a rest => (some (f a), rest)) ts := by
  have done (us : List Token) (a : α) (ha : L us a) : M (us ++ []) (f a) := by
    rw [List.append_nil]
    exact hM us a ha
  exact h.bind (fun us a _ _ ha => heeds_stop (fun _ _ => rfl) (done us a ha))
    fun us a ha => ⟨[], f a, done us a ha⟩

/-- A parser of some sequences is one of all sequences that these are among. -/
lemma Heeds.imp (h : Heeds L p ts) (hM : ∀ us a, L us a → M us a) : Heeds M p ts := by
  obtain ⟨us, rest, v, hts, hp, hv⟩ := h
  refine ⟨us, rest, v, hts, hp, ?_⟩
  cases v with
  | none =>
    obtain ⟨vs, a, ha⟩ := hv
    exact ⟨vs, a, hM _ a ha⟩
  | some a => exact hM _ a hv

end Heeds

section Equations

variable {ts : List Spanned} {left : Expr} {i j k : Nat}

/-- A point with a name behind it is a step by that name, with more steps after it. -/
lemma outcome_steps_dot {name : String} :
    outcome (steps (⟨.dot, i⟩ :: ⟨.identifier name, j⟩ :: ts))
      = andThen (fun ts => outcome (steps ts)) (fun more rest => (some (.key name :: more), rest))
        ts := by
  rw [steps]
  exact outcome_bind rfl fun _ _ _ => rfl

/-- An opening bracket begins a step that the brackets hold, with more steps after it. -/
lemma outcome_steps_bracket :
    outcome (steps (⟨.openBracket, i⟩ :: ts))
      = andThen (fun ts => outcome (bracketStep ts)) (fun step => andThen
        (fun ts => outcome (steps ts)) (fun more rest => (some (step :: more), rest))) ts := by
  rw [steps]
  exact outcome_bind rfl fun _ _ _ => outcome_bind rfl fun _ _ _ => rfl

/-- A disjunction is a conjunction and what the loop over `or` makes of it. -/
lemma outcome_disjunction (ts : List Spanned) :
    outcome (disjunction ts) = andThen (fun ts => outcome (conjunction ts))
      (fun left ts => outcome (disjunctionRest left ts)) ts := by
  rw [disjunction]
  exact outcome_bind rfl fun _ _ _ => outcome_last fun _ _ _ => rfl

/-- The loop over `or` goes on with one more conjunction on its right. -/
lemma outcome_disjunctionRest_or :
    outcome (disjunctionRest left (⟨.keyword .or, i⟩ :: ts))
      = andThen (fun ts => outcome (conjunction ts))
        (fun right ts => outcome (disjunctionRest (.or left right) ts)) ts := by
  rw [disjunctionRest]
  exact outcome_bind rfl fun _ _ _ => outcome_last fun _ _ _ => rfl

/-- A conjunction is a negation and what the loop over `and` makes of it. -/
lemma outcome_conjunction (ts : List Spanned) :
    outcome (conjunction ts) = andThen (fun ts => outcome (negation ts))
      (fun left ts => outcome (conjunctionRest left ts)) ts := by
  rw [conjunction]
  exact outcome_bind rfl fun _ _ _ => outcome_last fun _ _ _ => rfl

/-- The loop over `and` goes on with one more negation on its right. -/
lemma outcome_conjunctionRest_and :
    outcome (conjunctionRest left (⟨.keyword .and, i⟩ :: ts))
      = andThen (fun ts => outcome (negation ts))
        (fun right ts => outcome (conjunctionRest (.and left right) ts)) ts := by
  rw [conjunctionRest]
  exact outcome_bind rfl fun _ _ _ => outcome_last fun _ _ _ => rfl

/-- Behind `not` stands what is negated, which may be a negation again. -/
lemma outcome_negation_not :
    outcome (negation (⟨.keyword .not, i⟩ :: ts))
      = andThen (fun ts => outcome (negation ts)) (fun a rest => (some (.not a), rest)) ts := by
  rw [negation]
  exact outcome_bind rfl fun _ _ _ => rfl

/-- A comparison is a sum and what an operator behind it makes of that. -/
lemma outcome_comparison (ts : List Spanned) :
    outcome (comparison ts) = andThen (fun ts => outcome (sum ts))
      (fun left ts => outcome (comparisonRest left ts)) ts := by
  rw [comparison]
  exact outcome_bind rfl fun _ _ _ => outcome_last fun _ _ _ => rfl

/-- An operator compares the sum before it with one more sum. -/
lemma outcome_comparisonRest_compare {op : Comparison} :
    outcome (comparisonRest left (⟨.compare op, i⟩ :: ts))
      = andThen (fun ts => outcome (sum ts))
        (fun right rest => (some (.compare op left right), rest)) ts := by
  rw [comparisonRest]
  exact outcome_bind rfl fun _ _ _ => rfl

/-- Behind `is not` stands the type that is not to be. -/
lemma outcome_comparisonRest_isNot :
    outcome (comparisonRest left (⟨.keyword .is, i⟩ :: ⟨.keyword .not, j⟩ :: ts))
      = andThen (fun ts => outcome (sum ts))
        (fun type rest => (some (.is left true type), rest)) ts := by
  rw [comparisonRest]
  exact outcome_bind rfl fun _ _ _ => rfl

/-- Behind `is` alone stands the type that is to be. -/
lemma outcome_comparisonRest_is (h : next ts ≠ some (.keyword .not)) :
    outcome (comparisonRest left (⟨.keyword .is, i⟩ :: ts))
      = andThen (fun ts => outcome (sum ts))
        (fun type rest => (some (.is left false type), rest)) ts := by
  rw [comparisonRest]
  · exact outcome_bind rfl fun _ _ _ => rfl
  · exact fun j r e => h (next_eq_some_iff.2 ⟨j, r, e⟩)

/-- A sum is an operand and what the loop over the arithmetic operators makes of it. -/
lemma outcome_sum (ts : List Spanned) :
    outcome (sum ts) = andThen (fun ts => outcome (minus ts))
      (fun left ts => outcome (sumRest left ts)) ts := by
  rw [sum]
  exact outcome_bind rfl fun _ _ _ => outcome_last fun _ _ _ => rfl

/-- The loop over the arithmetic operators goes on with one more operand on its right. -/
lemma outcome_sumRest_arith {op : Arith} :
    outcome (sumRest left (⟨.arith op, i⟩ :: ts))
      = andThen (fun ts => outcome (minus ts))
        (fun right ts => outcome (sumRest (.arith op left right) ts)) ts := by
  rw [sumRest]
  exact outcome_bind rfl fun _ _ _ => outcome_last fun _ _ _ => rfl

/-- Behind a sign stands what it is put before, which may have a sign again. -/
lemma outcome_minus_sub :
    outcome (minus (⟨.arith .sub, i⟩ :: ts))
      = andThen (fun ts => outcome (minus ts)) (fun a rest => (some (.neg a), rest)) ts := by
  rw [minus]
  exact outcome_bind rfl fun _ _ _ => rfl

/-- An opening parenthesis begins a group, which has to be closed. -/
lemma outcome_primary_group :
    outcome (primary (⟨.openParen, i⟩ :: ts))
      = andThen (fun ts => outcome (disjunction ts)) (fun e ts => outcome (closed e ts)) ts := by
  rw [primary]
  exact outcome_bind rfl fun _ _ _ => outcome_last fun _ _ _ => rfl

/-- A name with an opening parenthesis behind it calls a function with arguments. -/
lemma outcome_primary_call {function : String} (h : next ts ≠ some .closeParen) :
    outcome (primary (⟨.identifier function, i⟩ :: ⟨.openParen, j⟩ :: ts))
      = andThen (fun ts => outcome (arguments ts))
        (fun args rest => (some (.call function args), rest)) ts := by
  rw [primary]
  · exact outcome_bind rfl fun _ _ _ => rfl
  · exact fun j r e => h (next_eq_some_iff.2 ⟨j, r, e⟩)

/-- A name without an opening parenthesis behind it begins a path. -/
lemma outcome_primary_name {name : String} (h : next ts ≠ some .openParen) :
    outcome (primary (⟨.identifier name, i⟩ :: ts))
      = andThen (fun ts => outcome (steps ts))
        (fun more rest => (some (.name ⟨.key name :: more⟩), rest)) ts := by
  have hopen (j : Nat) (r : List Spanned) (e : ts = ⟨.openParen, j⟩ :: r) : False :=
    h (next_eq_some_iff.2 ⟨j, r, e⟩)
  rw [primary]
  · exact outcome_bind rfl fun _ _ _ => rfl
  · exact fun j _ r e => hopen j _ e
  · exact hopen

/-- Arguments are one argument and the others. -/
lemma outcome_arguments (ts : List Spanned) :
    outcome (arguments ts) = andThen (fun ts => outcome (disjunction ts))
      (fun a => andThen (fun ts => outcome (argumentsRest ts))
        (fun more rest => (some (a :: more), rest))) ts := by
  rw [arguments]
  exact outcome_bind rfl fun _ _ _ => outcome_bind rfl fun _ _ _ => rfl

/-- Behind a comma stand more arguments. -/
lemma outcome_argumentsRest_comma :
    outcome (argumentsRest (⟨.comma, i⟩ :: ts)) = outcome (arguments ts) := by
  rw [argumentsRest]
  exact outcome_last fun _ _ _ => rfl

end Equations

section Steps

variable {ts : List Spanned}

/-- Behind the content of brackets stands the closing one. -/
lemma heeds_close {L : List Token → Step → Prop} {step : Step} (h : L [.closeBracket] step)
    (ts : List Spanned) : Heeds L (fun ts => outcome (bracketStep.close step ts)) ts := by
  cases hts : next ts with
  | none => exact heeds_fail_end hts rfl ⟨_, step, h⟩
  | some t =>
    cases t with
    | closeBracket =>
      obtain ⟨i, r, rfl⟩ := next_eq_some_iff.1 hts
      exact heeds_leaf (fun _ => rfl) h
    | _ => exact heeds_fail_at hts (fun _ _ => rfl) ⟨_, step, h⟩

/-- What is between brackets is an index or a key. -/
lemma heeds_bracketStep (ts : List Spanned) :
    Heeds (fun us => IsStep (.openBracket :: us)) (fun ts => outcome (bracketStep ts)) ts := by
  have begun : ∃ vs step, IsStep (.openBracket :: vs) step := ⟨_, _, @IsStep.key ""⟩
  cases hts : next ts with
  | none => exact heeds_fail_end hts rfl begun
  | some t =>
    cases t with
    | number n =>
      cases hn : Text.uint64OfDigits? n.toList with
      | some index =>
        obtain ⟨i, r, rfl⟩ := next_eq_some_iff.1 hts
        refine heeds_cons (heeds_close (.index hn) r) fun ts' _ => ?_
        dsimp only [bracketStep]
        rw [hn]
      | none =>
        refine heeds_fail_at hts (fun i r => ?_) begun
        dsimp only [bracketStep]
        rw [hn]
        rfl
    | string name =>
      obtain ⟨i, r, rfl⟩ := next_eq_some_iff.1 hts
      exact heeds_cons (heeds_close .key r) fun _ _ => rfl
    | _ => exact heeds_fail_at hts (fun _ _ => rfl) begun

/-- Steps stop at a token that begins none. -/
lemma outcome_steps_stop (h : next ts ≠ some .dot) (h' : next ts ≠ some .openBracket) :
    outcome (steps ts) = (some [], ts) := by
  rw [steps.eq_def]
  split
  · exact absurd rfl h
  · exact absurd rfl h
  · exact absurd rfl h'
  · rfl

/-- A point without a name behind it is no step. -/
lemma outcome_steps_dot_fail {i : Nat} (h : ∀ name, next ts ≠ some (.identifier name)) :
    outcome (steps (⟨.dot, i⟩ :: ts)) = (none, ts) := by
  rw [steps]
  · rfl
  · exact fun name j r e => h name (next_eq_some_iff.2 ⟨j, r, e⟩)

/-- The steps of a path are read as far as there are any. -/
lemma heeds_steps (ts : List Spanned) : Heeds AreSteps (fun ts => outcome (steps ts)) ts := by
  by_cases hdot : next ts = some .dot
  · obtain ⟨i, r, rfl⟩ := next_eq_some_iff.1 hdot
    by_cases hname : ∃ name, next r = some (.identifier name)
    · obtain ⟨name, hname⟩ := hname
      obtain ⟨j, r, rfl⟩ := next_eq_some_iff.1 hname
      refine heeds_cons (heeds_cons ((heeds_steps r).map fun us more h => ?_)
        fun _ _ => outcome_steps_dot) fun _ _ => rfl
      exact .cons .name h
    · have hfail : Heeds (fun us => AreSteps (.dot :: us)) (fun ts => (none, ts)) r :=
        heeds_fail (fun _ _ => rfl) ⟨[.identifier ""], _, .cons .name .nil⟩
      refine heeds_cons hfail fun ts' hnext => outcome_steps_dot_fail fun name h => ?_
      exact hname ⟨name, hnext.symm.trans h⟩
  · by_cases hbracket : next ts = some .openBracket
    · obtain ⟨i, r, rfl⟩ := next_eq_some_iff.1 hbracket
      refine heeds_cons ((heeds_bracketStep r).bind (fun us step mid hread hus => ?_)
        fun us step hus => ⟨[], [step], ?_⟩) fun _ _ => outcome_steps_bracket
      · have := (outcome_eq_some_iff.1 hread).shorter
        exact (heeds_steps mid).map fun vs more h => .cons hus h
      · exact .cons hus .nil
    · exact heeds_stop (fun ts' h => outcome_steps_stop (h ▸ hdot) (h ▸ hbracket)) .nil
termination_by ts.length
decreasing_by all_goals subst_vars; simp only [List.length_cons]; omega

end Steps

section Loops

variable {k j i : Nat} {left : Expr} {done : List Token} {t : Token} {r : List Spanned}
  {operand p : List Spanned → Option Expr × List Spanned}

/-- A loop behind an operand, which is enough by itself. -/
lemma heeds_operand {M : List Token → Expr → Prop} {c : Expr → Expr}
    {loop : Expr → List Spanned → Option Expr × List Spanned} (h : Heeds (Derives j) operand r)
    (rule : ∀ us b, Derives j us b → M us (c b)) (hp : ∀ ts', p ts' = andThen operand loop ts')
    (hloop : ∀ us b mid, operand r = (some b, mid) → Derives j us b →
      Heeds (fun vs => M (us ++ vs)) (loop b) mid) :
    Heeds M p r := by
  refine (h.bind hloop fun us b hus => ⟨[], c b, ?_⟩).turn fun ts' _ => hp ts'
  rw [List.append_nil]
  exact rule us b hus

/-- A loop over the operands of operators that group to the left. What it is to go on with are the
tokens that it has `done`. -/
lemma heeds_loop {c : Expr → Expr} {loop : Expr → List Spanned → Option Expr × List Spanned}
    (h : Heeds (Derives j) operand r)
    (rule : ∀ us b, Derives j us b → Derives k (done ++ t :: us) (c b))
    (hp : ∀ ts', p (⟨t, i⟩ :: ts') = andThen operand loop ts')
    (hloop : ∀ us b mid, operand r = (some b, mid) → Derives k us (c b) →
      Heeds (fun vs => Derives k (us ++ vs)) (loop b) mid) :
    Heeds (fun us => Derives k (done ++ us)) p (⟨t, i⟩ :: r) := by
  refine heeds_cons (heeds_operand h rule (fun _ => rfl) fun us b mid hread hus => ?_)
    fun ts' _ => hp ts'
  have := hloop _ b mid hread (rule us b hus)
  simpa only [List.append_assoc, List.cons_append] using this

/-- The loop over `or` ends at any other token. -/
lemma outcome_disjunctionRest_stop {ts : List Spanned} (h : next ts ≠ some (.keyword .or)) :
    outcome (disjunctionRest left ts) = (some left, ts) := by
  rw [disjunctionRest.eq_def]
  split
  · exact absurd rfl h
  · rfl

/-- The loop over `and` ends at any other token. -/
lemma outcome_conjunctionRest_stop {ts : List Spanned} (h : next ts ≠ some (.keyword .and)) :
    outcome (conjunctionRest left ts) = (some left, ts) := by
  rw [conjunctionRest.eq_def]
  split
  · exact absurd rfl h
  · rfl

/-- A sum is not compared at a token that is no operator of comparisons. -/
lemma outcome_comparisonRest_stop {ts : List Spanned} (h : next ts ≠ some (.keyword .is))
    (h' : ∀ op, next ts ≠ some (.compare op)) :
    outcome (comparisonRest left ts) = (some left, ts) := by
  rw [comparisonRest.eq_def]
  split
  · exact absurd rfl h
  · exact absurd rfl h
  · exact absurd rfl (h' _)
  · rfl

/-- The loop over the arithmetic operators ends at any other token. -/
lemma outcome_sumRest_stop {ts : List Spanned} (h : ∀ op, next ts ≠ some (.arith op)) :
    outcome (sumRest left ts) = (some left, ts) := by
  rw [sumRest.eq_def]
  split
  · exact absurd rfl (h _)
  · rfl

/-- Without a `not` in front, a negation is a comparison. -/
lemma outcome_negation_comparison {ts : List Spanned} (h : next ts ≠ some (.keyword .not)) :
    outcome (negation ts) = outcome (comparison ts) := by
  rw [negation.eq_def]
  split
  · exact absurd rfl h
  · rfl

/-- Without a sign in front, an operand is a primary expression. -/
lemma outcome_minus_primary {ts : List Spanned} (h : next ts ≠ some (.arith .sub)) :
    outcome (minus ts) = outcome (primary ts) := by
  rw [minus.eq_def]
  split
  · exact absurd rfl h
  · rfl

end Loops

/-- The tokens of the arguments of a call with the parenthesis behind them. -/
def DeriveCall (us : List Token) (args : List Expr) : Prop :=
  ∃ ts, us = ts ++ [.closeParen] ∧ DeriveArgs ts args

/-- Behind a group stands the parenthesis that closes it. -/
lemma heeds_closed {L : List Token → Expr → Prop} {e : Expr} (h : L [.closeParen] e)
    (ts : List Spanned) : Heeds L (fun ts => outcome (closed e ts)) ts := by
  cases hts : next ts with
  | none => exact heeds_fail_end hts rfl ⟨_, e, h⟩
  | some t =>
    cases t with
    | closeParen =>
      obtain ⟨i, r, rfl⟩ := next_eq_some_iff.1 hts
      exact heeds_leaf (fun _ => rfl) h
    | _ => exact heeds_fail_at hts (fun _ _ => rfl) ⟨_, e, h⟩

mutual

/-- The parser of disjunctions heeds those of the grammar. -/
lemma heeds_disjunction (ts : List Spanned) :
    Heeds (Derives 1) (fun ts => outcome (disjunction ts)) ts := by
  refine heeds_operand (heeds_conjunction ts) (fun _ _ => .tighter) outcome_disjunction
    fun us left mid hread hus => ?_
  have := (outcome_eq_some_iff.1 hread).shorter
  exact heeds_disjunctionRest hus.tighter mid
termination_by 8 * ts.length + 6

/-- The loop over `or` heeds the disjunctions that go on with the one that is done. -/
lemma heeds_disjunctionRest {done : List Token} {left : Expr} (hleft : Derives 1 done left)
    (ts : List Spanned) :
    Heeds (fun us => Derives 1 (done ++ us)) (fun ts => outcome (disjunctionRest left ts)) ts := by
  by_cases hts : next ts = some (.keyword .or)
  · obtain ⟨i, r, hts⟩ := next_eq_some_iff.1 hts
    have hlt := length_lt_of_eq_cons hts
    rw [hts]
    refine heeds_loop (heeds_conjunction r) (fun _ _ h => hleft.or h)
      (fun _ => outcome_disjunctionRest_or) fun us b mid hread h => ?_
    have := (outcome_eq_some_iff.1 hread).shorter
    exact heeds_disjunctionRest h mid
  · refine heeds_stop (fun ts' h => outcome_disjunctionRest_stop (h ▸ hts)) ?_
    rwa [List.append_nil]
termination_by 8 * ts.length

/-- The parser of conjunctions heeds those of the grammar. -/
lemma heeds_conjunction (ts : List Spanned) :
    Heeds (Derives 2) (fun ts => outcome (conjunction ts)) ts := by
  refine heeds_operand (heeds_negation ts) (fun _ _ => .tighter) outcome_conjunction
    fun us left mid hread hus => ?_
  have := (outcome_eq_some_iff.1 hread).shorter
  exact heeds_conjunctionRest hus.tighter mid
termination_by 8 * ts.length + 5

/-- The loop over `and` heeds the conjunctions that go on with the one that is done. -/
lemma heeds_conjunctionRest {done : List Token} {left : Expr} (hleft : Derives 2 done left)
    (ts : List Spanned) :
    Heeds (fun us => Derives 2 (done ++ us)) (fun ts => outcome (conjunctionRest left ts)) ts := by
  by_cases hts : next ts = some (.keyword .and)
  · obtain ⟨i, r, hts⟩ := next_eq_some_iff.1 hts
    have hlt := length_lt_of_eq_cons hts
    rw [hts]
    refine heeds_loop (heeds_negation r) (fun _ _ h => hleft.and h)
      (fun _ => outcome_conjunctionRest_and) fun us b mid hread h => ?_
    have := (outcome_eq_some_iff.1 hread).shorter
    exact heeds_conjunctionRest h mid
  · refine heeds_stop (fun ts' h => outcome_conjunctionRest_stop (h ▸ hts)) ?_
    rwa [List.append_nil]
termination_by 8 * ts.length

/-- The parser of negations heeds those of the grammar. -/
lemma heeds_negation (ts : List Spanned) :
    Heeds (Derives 3) (fun ts => outcome (negation ts)) ts := by
  by_cases hts : next ts = some (.keyword .not)
  · obtain ⟨i, r, hts⟩ := next_eq_some_iff.1 hts
    have hlt := length_lt_of_eq_cons hts
    rw [hts]
    exact heeds_cons ((heeds_negation r).map fun _ _ => .not) fun _ _ => outcome_negation_not
  · exact ((heeds_comparison ts).imp fun _ _ => .tighter).turn
      fun ts' h => outcome_negation_comparison (h ▸ hts)
termination_by 8 * ts.length + 4

/-- The parser of comparisons heeds those of the grammar. -/
lemma heeds_comparison (ts : List Spanned) :
    Heeds (Derives 4) (fun ts => outcome (comparison ts)) ts := by
  refine heeds_operand (heeds_sum ts) (fun _ _ => .tighter) outcome_comparison
    fun us left mid hread hus => ?_
  have := (outcome_eq_some_iff.1 hread).shorter
  exact heeds_comparisonRest hus mid
termination_by 8 * ts.length + 3

/-- What is read behind a sum is the rest of a comparison that begins with it. -/
lemma heeds_comparisonRest {done : List Token} {left : Expr} (hleft : Derives 5 done left)
    (ts : List Spanned) :
    Heeds (fun us => Derives 4 (done ++ us)) (fun ts => outcome (comparisonRest left ts)) ts := by
  by_cases his : next ts = some (.keyword .is)
  · obtain ⟨i, r, hts⟩ := next_eq_some_iff.1 his
    have hlt := length_lt_of_eq_cons hts
    rw [hts]
    by_cases hnot : next r = some (.keyword .not)
    · obtain ⟨j, r', hr⟩ := next_eq_some_iff.1 hnot
      have hlt' := length_lt_of_eq_cons hr
      rw [hr]
      exact heeds_cons (heeds_cons ((heeds_sum r').map fun _ _ => hleft.isNot)
        fun _ _ => outcome_comparisonRest_isNot) fun _ _ => rfl
    · exact heeds_cons ((heeds_sum r).map fun _ _ => hleft.is)
        fun ts' h => outcome_comparisonRest_is (h ▸ hnot)
  · by_cases hcompare : ∃ op, next ts = some (.compare op)
    · obtain ⟨op, hop⟩ := hcompare
      obtain ⟨i, r, hts⟩ := next_eq_some_iff.1 hop
      have hlt := length_lt_of_eq_cons hts
      rw [hts]
      exact heeds_cons ((heeds_sum r).map fun _ _ => hleft.compare)
        fun _ _ => outcome_comparisonRest_compare
    · refine heeds_stop (fun ts' h => outcome_comparisonRest_stop (h ▸ his)
        fun op hop => hcompare ⟨op, h ▸ hop⟩) ?_
      rw [List.append_nil]
      exact hleft.tighter
termination_by 8 * ts.length

/-- The parser of sums heeds those of the grammar. -/
lemma heeds_sum (ts : List Spanned) : Heeds (Derives 5) (fun ts => outcome (sum ts)) ts := by
  refine heeds_operand (heeds_minus ts) (fun _ _ => .tighter) outcome_sum
    fun us left mid hread hus => ?_
  have := (outcome_eq_some_iff.1 hread).shorter
  exact heeds_sumRest hus.tighter mid
termination_by 8 * ts.length + 2

/-- The loop over the arithmetic operators heeds the sums that go on with the one that is done. -/
lemma heeds_sumRest {done : List Token} {left : Expr} (hleft : Derives 5 done left)
    (ts : List Spanned) :
    Heeds (fun us => Derives 5 (done ++ us)) (fun ts => outcome (sumRest left ts)) ts := by
  by_cases hts : ∃ op, next ts = some (.arith op)
  · obtain ⟨op, hop⟩ := hts
    obtain ⟨i, r, hts⟩ := next_eq_some_iff.1 hop
    have hlt := length_lt_of_eq_cons hts
    rw [hts]
    refine heeds_loop (heeds_minus r) (fun _ _ h => hleft.arith h)
      (fun _ => outcome_sumRest_arith) fun us b mid hread h => ?_
    have := (outcome_eq_some_iff.1 hread).shorter
    exact heeds_sumRest h mid
  · refine heeds_stop (fun ts' h => outcome_sumRest_stop fun op hop => hts ⟨op, h ▸ hop⟩) ?_
    rwa [List.append_nil]
termination_by 8 * ts.length

/-- The parser of operands with signs heeds those of the grammar. -/
lemma heeds_minus (ts : List Spanned) : Heeds (Derives 6) (fun ts => outcome (minus ts)) ts := by
  by_cases hts : next ts = some (.arith .sub)
  · obtain ⟨i, r, hts⟩ := next_eq_some_iff.1 hts
    have hlt := length_lt_of_eq_cons hts
    rw [hts]
    exact heeds_cons ((heeds_minus r).map fun _ _ => .neg) fun _ _ => outcome_minus_sub
  · exact ((heeds_primary ts).imp fun _ _ => .tighter).turn
      fun ts' h => outcome_minus_primary (h ▸ hts)
termination_by 8 * ts.length + 1

/-- The parser of primary expressions heeds those of the grammar, of which the first token tells the
kind. -/
lemma heeds_primary (ts : List Spanned) :
    Heeds (Derives 7) (fun ts => outcome (primary ts)) ts := by
  have begun : ∃ vs e, Derives 7 vs e := ⟨_, _, .null⟩
  cases hts : next ts with
  | none =>
    refine heeds_fail_end hts ?_ begun
    rw [primary.eq_def]
    rfl
  | some t =>
    have hts' := hts
    obtain ⟨i, r, hts⟩ := next_eq_some_iff.1 hts
    have hlt := length_lt_of_eq_cons hts
    rw [hts]
    cases t with
    | openParen =>
      exact heeds_cons ((heeds_disjunction r).bind (fun us e mid _ h => heeds_closed (.group h) mid)
        fun us e h => ⟨[.closeParen], e, .group h⟩) fun _ _ => outcome_primary_group
    | string text =>
      refine heeds_leaf (fun ts' => ?_) .string
      rw [primary.eq_def]
      rfl
    | number n =>
      cases hn : Literal.ofNumeral? n with
      | some l =>
        exact heeds_leaf (fun ts' => outcome_eq_some_iff.2 (reads_primary_number hn)) (.number hn)
      | none =>
        refine heeds_fail_at (hts ▸ hts') (fun i r => ?_) begun
        rw [primary.eq_def]
        dsimp only
        rw [hn]
        rfl
    | identifier name =>
      by_cases hopen : next r = some .openParen
      · obtain ⟨j, r', hr⟩ := next_eq_some_iff.1 hopen
        have hlt' := length_lt_of_eq_cons hr
        rw [hr]
        by_cases hclose : next r' = some .closeParen
        · obtain ⟨k, r'', rfl⟩ := next_eq_some_iff.1 hclose
          refine heeds_cons (heeds_cons (heeds_leaf (fun ts' => ?_) .constant) fun _ _ => rfl)
            fun _ _ => rfl
          rw [primary.eq_def]
          rfl
        · refine heeds_cons (heeds_cons ((heeds_arguments r').map ?_)
            fun ts' h => outcome_primary_call (h ▸ hclose)) fun _ _ => rfl
          rintro _ args ⟨ts, rfl, hargs⟩
          exact .call hargs
      · exact heeds_cons ((heeds_steps r).map fun _ _ => .name)
          fun ts' h => outcome_primary_name (h ▸ hopen)
    | keyword k =>
      cases k with
      | true =>
        refine heeds_leaf (fun ts' => ?_) .true
        rw [primary.eq_def]
        rfl
      | false =>
        refine heeds_leaf (fun ts' => ?_) .false
        rw [primary.eq_def]
        rfl
      | null =>
        refine heeds_leaf (fun ts' => ?_) .null
        rw [primary.eq_def]
        rfl
      | _ =>
        refine heeds_fail_at (hts ▸ hts') (fun i r => ?_) begun
        rw [primary.eq_def]
        rfl
    | _ =>
      refine heeds_fail_at (hts ▸ hts') (fun i r => ?_) begun
      rw [primary.eq_def]
      rfl
termination_by 8 * ts.length

/-- The parser of arguments heeds those of the grammar, with the parenthesis behind them. -/
lemma heeds_arguments (ts : List Spanned) :
    Heeds DeriveCall (fun ts => outcome (arguments ts)) ts := by
  refine ((heeds_disjunction ts).bind (fun us a mid hread hus => ?_)
    fun us a hus => ⟨[.closeParen], [a], us, rfl, .last hus⟩).turn
      fun ts' _ => outcome_arguments ts'
  have := (outcome_eq_some_iff.1 hread).shorter
  exact (heeds_argumentsRest hus mid).map fun _ _ h => h
termination_by 8 * ts.length + 7

/-- What is read behind an argument is the rest of arguments that begin with it. -/
lemma heeds_argumentsRest {done : List Token} {a : Expr} (ha : Derives 1 done a)
    (ts : List Spanned) :
    Heeds (fun us more => DeriveCall (done ++ us) (a :: more))
      (fun ts => outcome (argumentsRest ts)) ts := by
  have closed : DeriveCall (done ++ [.closeParen]) [a] := ⟨done, rfl, .last ha⟩
  cases hts : next ts with
  | none =>
    refine heeds_fail_end hts ?_ ⟨_, _, closed⟩
    rw [argumentsRest.eq_def]
    rfl
  | some t =>
    have hts' := hts
    obtain ⟨i, r, hts⟩ := next_eq_some_iff.1 hts
    have hlt := length_lt_of_eq_cons hts
    rw [hts]
    cases t with
    | comma =>
      refine heeds_cons ((heeds_arguments r).imp ?_) fun _ _ => outcome_argumentsRest_comma
      rintro us args ⟨ts, rfl, hargs⟩
      exact ⟨done ++ .comma :: ts, by rw [List.append_assoc, List.cons_append], .more ha hargs⟩
    | closeParen =>
      refine heeds_leaf (fun ts' => ?_) closed
      rw [argumentsRest.eq_def]
      rfl
    | _ =>
      refine heeds_fail_at (hts ▸ hts') (fun i r => ?_) ⟨_, _, closed⟩
      rw [argumentsRest.eq_def]
      rfl
termination_by 8 * ts.length

end

end TableQuery.Parser
