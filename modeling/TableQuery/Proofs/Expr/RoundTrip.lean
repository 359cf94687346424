import TableQuery.Proofs.Expr.Acceptance
import TableQuery.Proofs.Expr.Literals

/-!
# Parsing the text of an expression

The text of an expression is parsed as the same expression. By induction on the expression, its text
spells tokens from which the grammar derives it at its own level; the parentheses around an operand
bring it to the level that its place asks for.
-/

namespace TableQuery

open Grammar

/-- A path starts at an attribute whose name can stand by itself. -/
def Path.WellFormed (p : Path) : Prop :=
  ∃ name rest, p.steps = .key name :: rest ∧ Word.isIdentifier name.toList = true

mutual

/-- The text of the expression can be parsed: numbers are not negative, functions have names, and
paths start at an attribute. -/
def Expr.WellFormed : Expr → Prop
  | .literal l => l.WellFormed
  | .name path => path.WellFormed
  | .not a | .neg a => a.WellFormed
  | .or a b | .and a b | .compare _ a b | .arith _ a b | .is a _ b => a.WellFormed ∧ b.WellFormed
  | .call function args => Word.isIdentifier function.toList = true ∧ Expr.AllWellFormed args

/-- The texts of all arguments can be parsed. -/
def Expr.AllWellFormed : List Expr → Prop
  | [] => True
  | a :: rest => a.WellFormed ∧ Expr.AllWellFormed rest

end

/-- A text spells the tokens of an expression of a level, of which something is true. -/
def Spelled (k : Nat) (P : Expr → Prop) (s : List Char) : Prop :=
  ∃ ts e, Spells closes s ts ∧ Derives k ts e ∧ P e

/-- A text spells the tokens of one or more arguments, of which something is true. -/
def SpelledArgs (P : List Expr → Prop) (s : List Char) : Prop :=
  ∃ ts es, Spells closes s ts ∧ DeriveArgs ts es ∧ P es

/-- A text spells the tokens of an expression of a level that is the same as `e`. -/
def Renders (k : Nat) (e : Expr) (s : List Char) : Prop :=
  Spelled k (fun e' => e.same e' = true) s

section Paths

/-- A machine index is read back from its digits. -/
lemma uint64OfDigits?_digits (i : UInt64) :
    Text.uint64OfDigits? (Text.digits i.toNat) = some i := by
  have hplus := Decimal.head?_digits (Text.all_isDigit_digits i.toNat) (c := '+') (by decide)
  rw [Text.uint64OfDigits?_of_head hplus, Text.bind_uint64?_eq_some_iff, Text.natOfDigits?_digits]

/-- A step in brackets is spelled by them and by what is between them. -/
lemma spells_bracketed (step : Step) :
    ∃ ts s, step.bracketed.toList = '[' :: s ∧ Spells anything ('[' :: s) ts ∧ IsStep ts step := by
  cases step with
  | key name =>
    have hname := (spells_quoted name).brackets rfl
    refine ⟨_, _, ?_, hname, .key⟩
    rw [Step.bracketed, String.toList_append, String.toList_append]
    rfl
  | index i =>
    have hnumber := spells_numeral (Decimal.Numeral.ofNat i.toNat) (.inr rfl)
    rw [Decimal.Numeral.text_ofNat] at hnumber
    refine ⟨_, _, ?_, hnumber.brackets (by decide), .index ?_⟩
    · rw [Step.bracketed, Text.natText, String.toList_append, String.toList_append,
        String.toList_ofList (l := Text.digits i.toNat)]
      rfl
    · rw [String.toList_ofList, uint64OfDigits?_digits]

/-- A step behind other steps begins with what is no part of a word. -/
lemma spells_step (step : Step) :
    ∃ ts c s, step.text.toList = c :: s ∧ (!Word.isPart c) = true
      ∧ Spells (!Word.isPart ·) (c :: s) ts ∧ IsStep ts step := by
  obtain ⟨ts, s, htext, hs, hstep⟩ := spells_bracketed step
  have bracketed : ∃ ts c s, step.bracketed.toList = c :: s ∧ (!Word.isPart c) = true
      ∧ Spells (!Word.isPart ·) (c :: s) ts ∧ IsStep ts step :=
    ⟨ts, '[', s, htext, by decide, hs.mono fun _ _ => rfl, hstep⟩
  cases step with
  | key name =>
    rw [Step.text]
    split
    next h =>
      have dot := spells_symbol (c := '.') (by decide) fun _ => rfl
      refine ⟨_, '.', name.toList, ?_, by decide, dot.append_anything (spells_identifier h), .name⟩
      rw [String.toList_append]
      rfl
    next => exact bracketed
  | index i => exact bracketed

/-- Steps behind other steps are spelled one after the other. -/
lemma spells_steps (steps : List Step) :
    ∃ ts, Spells (!Word.isPart ·) (String.join (steps.map Step.text)).toList ts
      ∧ (∀ c ∈ (String.join (steps.map Step.text)).toList.head?, (!Word.isPart c) = true)
      ∧ AreSteps ts steps := by
  induction steps with
  | nil => exact ⟨[], spells_nil.mono fun _ _ => rfl, nofun, .nil⟩
  | cons step steps ih =>
    obtain ⟨ts, c, s, htext, hc, hs, hstep⟩ := spells_step step
    obtain ⟨us, hus, hhead, hsteps⟩ := ih
    rw [List.map_cons, String.join_cons, String.toList_append, htext]
    refine ⟨ts ++ us, hs.append_same hus hhead, ?_, .cons hstep hsteps⟩
    rintro _ ⟨⟩
    exact hc

/-- A path spells its tokens. -/
lemma Path.spelled {path : Path} (h : path.WellFormed) :
    Spelled 7 (· = .name path) path.text.toList := by
  obtain ⟨name, steps, hpath, hname⟩ := h
  obtain ⟨ts, hts, hhead, hsteps⟩ := spells_steps steps
  have hword := (spells_identifier hname).append_same hts hhead
  have htext : path.text.toList = name.toList ++ (String.join (steps.map Step.text)).toList := by
    unfold Path.text
    rw [hpath]
    dsimp only [Step.rootText]
    rw [if_pos hname, String.toList_append]
  rw [htext]
  refine ⟨_, .name path, hword.mono fun _ => not_isPart_of_closes, ?_, rfl⟩
  have e : path = ⟨.key name :: steps⟩ := by
    cases path
    exact congrArg Path.mk hpath
  rw [e]
  exact .name hsteps

end Paths

section Operands

variable {k j m : Nat} {a : Expr} {s s' op : List Char} {ts : List Token} {P Q R : Expr → Prop}

/-- What stands for an expression of a level stands for one of every looser level. -/
lemma Spelled.loosen (h : Spelled k P s) (hj : j ≤ k) : Spelled j P s := by
  obtain ⟨ts, e, hts, he, hP⟩ := h
  exact ⟨ts, e, hts, he.loosen hj, hP⟩

/-- What is true of an expression may be replaced by what follows from it. -/
lemma Spelled.imp (h : Spelled k P s) (hQ : ∀ e, P e → Q e) : Spelled k Q s := by
  obtain ⟨ts, e, hts, he, hP⟩ := h
  exact ⟨ts, e, hts, he, hQ e hP⟩

/-- An operand is brought to any level by parentheses, which it needs if its own is looser. -/
lemma Spelled.grouped {needed : Bool} {x : String} (h : Spelled k P x.toList) (hk : 1 ≤ k)
    (hneeded : needed = false → j ≤ k) (hj : j ≤ 7) :
    Spelled j P (Expr.grouped needed x).toList := by
  unfold Expr.grouped
  cases needed with
  | true =>
    obtain ⟨ts, e, hts, he, hP⟩ := h.loosen hk
    have hparens := hts.parens (by decide)
    rw [if_pos rfl, String.toList_append, String.toList_append, List.append_assoc]
    exact ⟨_, e, hparens.mono fun _ _ => rfl, (Derives.group he).loosen hj, hP⟩
  | false =>
    rw [if_neg nofun]
    exact h.loosen (hneeded rfl)

/-- An operator before an operand. -/
lemma Spelled.unary {c : Expr → Expr} (hop : Spells anything op ts) (h : Spelled k P s)
    (rule : ∀ {us a}, Derives k us a → Derives m (ts ++ us) (c a)) (hQ : ∀ a, P a → Q (c a)) :
    Spelled m Q (op ++ s) := by
  obtain ⟨us, a, hus, ha, hP⟩ := h
  exact ⟨_, c a, hop.append_anything hus, rule ha, hQ a hP⟩

/-- An operator between two operands, with a blank before it. -/
lemma Spelled.binary {c : Expr → Expr → Expr} (hop : Spells anything (' ' :: op) ts)
    (h : Spelled k P s) (h' : Spelled j Q s')
    (rule : ∀ {us vs a b}, Derives k us a → Derives j vs b →
      Derives m (us ++ (ts ++ vs)) (c a b))
    (hR : ∀ a b, P a → Q b → R (c a b)) : Spelled m R (s ++ (' ' :: op ++ s')) := by
  obtain ⟨us, a, hus, ha, hP⟩ := h
  obtain ⟨vs, b, hvs, hb, hQ⟩ := h'
  exact ⟨_, c a b, hus.append (hop.append_anything hvs) rfl (by decide), rule ha hb,
    hR a b hP hQ⟩

/-- An operator between two operands, with blanks around it. -/
lemma Spelled.spaced {c : Expr → Expr → Expr} {x y o : String} (ho : Spells (· == ' ') o.toList ts)
    (h : Spelled k P x.toList) (h' : Spelled j Q y.toList)
    (rule : ∀ {us vs a b}, Derives k us a → Derives j vs b →
      Derives m (us ++ (ts ++ vs)) (c a b))
    (hR : ∀ a b, P a → Q b → R (c a b)) :
    Spelled m R (x ++ " " ++ o ++ " " ++ y).toList := by
  have := h.binary ho.spaced h' rule hR
  rw [List.cons_append, List.append_assoc] at this
  rw [String.toList_append, String.toList_append, String.toList_append, String.toList_append,
    List.append_assoc, List.append_assoc, List.append_assoc]
  exact this

/-- Every expression is one of the loosest level. -/
lemma Expr.tightness_pos (a : Expr) : 1 ≤ a.tightness := by
  cases a <;> exact Nat.le_add_left 1 _

/-- An operand is brought to a level by parentheses, if it needs them. -/
lemma Renders.grouped (h : Renders a.tightness a a.text.toList) (hk : k ≤ 7) :
    Renders k a (Expr.grouped (a.tightness < k) a.text).toList :=
  Spelled.grouped h (Expr.tightness_pos a) (fun hlt => by simpa using hlt) hk

/-- A keyword with blanks around it. -/
lemma spells_spaced_keyword (k : Keyword) :
    Spells anything (' ' :: (k.text.toList ++ [' '])) [.keyword k] := by
  refine ((spells_keyword k).mono ?_).spaced
  intro c hc
  rw [beq_iff_eq.1 hc]
  decide

/-- The last argument of a call. -/
lemma Spelled.last {Q : List Expr → Prop} (h : Spelled 1 P s) (hQ : ∀ e, P e → Q [e]) :
    SpelledArgs Q s := by
  obtain ⟨ts, e, hts, he, hP⟩ := h
  exact ⟨ts, [e], hts, .last he, hQ e hP⟩

/-- One more argument of a call, with a comma behind it. -/
lemma Spelled.more {Q R : List Expr → Prop} {x y : String} (h : Spelled 1 P x.toList)
    (h' : SpelledArgs Q y.toList) (hR : ∀ e es, P e → Q es → R (e :: es)) :
    SpelledArgs R (x ++ ", " ++ y).toList := by
  obtain ⟨ts, e, hts, he, hP⟩ := h
  obtain ⟨us, es, hus, hes, hQ⟩ := h'
  have comma := spells_symbol (c := ',') (by decide) fun _ => rfl
  have := hts.append ((comma.append_anything spells_blank).append_anything hus) rfl (by decide)
  rw [String.toList_append, String.toList_append, List.append_assoc]
  exact ⟨_, _, this, .more he hes, hR e es hP hQ⟩

/-- A call with arguments. -/
lemma SpelledArgs.call {P : List Expr → Prop} {f x : String} (h : SpelledArgs P x.toList)
    (hf : Word.isIdentifier f.toList = true) (hQ : ∀ es, P es → Q (.call f es)) :
    Spelled 7 Q (f ++ "(" ++ x ++ ")").toList := by
  obtain ⟨ts, es, hts, hes, hP⟩ := h
  have hcall := (spells_identifier hf).append (hts.parens (by decide)) rfl (by decide)
  rw [String.toList_append, String.toList_append, String.toList_append, List.append_assoc,
    List.append_assoc]
  exact ⟨_, _, hcall.mono fun _ _ => rfl, .call hes, hQ es hP⟩

/-- A call without arguments. -/
lemma spelled_constant {f : String} (hf : Word.isIdentifier f.toList = true)
    (hQ : Q (.call f [])) : Spelled 7 Q (f ++ "(" ++ "" ++ ")").toList := by
  have hcall := (spells_identifier hf).append (spells_nil.parens rfl) rfl (by decide)
  rw [String.toList_append, String.toList_append, String.toList_append, List.append_assoc,
    List.append_assoc]
  exact ⟨_, _, hcall.mono fun _ _ => rfl, .constant, hQ⟩

end Operands

mutual

/-- The text of an expression is derived at its level. -/
lemma Expr.renders : ∀ e : Expr, e.WellFormed → Renders e.tightness e e.text.toList
  | .literal l, h => by
    obtain ⟨ts, l', hts, hl, hsame⟩ := Literal.renders h
    exact ⟨ts, .literal l', hts, hl, hsame⟩
  | .name path, h => (Path.spelled h).imp fun _ he => by
    rw [he, same, beq_self_eq_true]
  | .or a b, h => by
    have ha := (renders a h.1).grouped (k := 1) (by decide)
    have hb := (renders b h.2).grouped (k := 2) (by decide)
    rw [text, String.toList_append, String.toList_append, List.append_assoc]
    exact ha.binary (spells_spaced_keyword .or) hb .or fun _ _ hsame hsame' =>
      Bool.and_eq_true_iff.2 ⟨hsame, hsame'⟩
  | .and a b, h => by
    have ha := (renders a h.1).grouped (k := 2) (by decide)
    have hb := (renders b h.2).grouped (k := 3) (by decide)
    rw [text, String.toList_append, String.toList_append, List.append_assoc]
    exact ha.binary (spells_spaced_keyword .and) hb .and fun _ _ hsame hsame' =>
      Bool.and_eq_true_iff.2 ⟨hsame, hsame'⟩
  | .not a, h => by
    have ha := (renders a h).grouped (k := 3) (by decide)
    have hop := (spells_keyword .not).append spells_blank rfl (by decide)
    rw [text, String.toList_append]
    exact ha.unary hop .not fun _ hsame => hsame
  | .compare op a b, h => by
    have ha := (renders a h.1).grouped (k := 5) (by decide)
    have hb := (renders b h.2).grouped (k := 5) (by decide)
    rw [text]
    exact ha.spaced (spells_comparison op) hb .compare fun _ _ hsame hsame' => by
      rw [same, beq_self_eq_true, hsame, hsame']
      rfl
  | .is a negated b, h => by
    have ha := (renders a h.1).grouped (k := 5) (by decide)
    have hb := (renders b h.2).grouped (k := 5) (by decide)
    rw [text, String.toList_append, String.toList_append, List.append_assoc]
    cases negated with
    | false =>
      exact ha.binary (spells_spaced_keyword .is) hb .is fun _ _ hsame hsame' =>
        Bool.and_eq_true_iff.2 ⟨hsame, hsame'⟩
    | true =>
      have hop := (spells_spaced_keyword .is).append_anything
        ((spells_keyword .not).append spells_blank rfl (by decide))
      exact ha.binary hop hb .isNot fun _ _ hsame hsame' =>
        Bool.and_eq_true_iff.2 ⟨hsame, hsame'⟩
  | .arith op a b, h => by
    have ha := (renders a h.1).grouped (k := 5) (by decide)
    have hb := (renders b h.2).grouped (k := 6) (by decide)
    rw [text]
    exact ha.spaced ((spells_arith op).mono fun _ _ => rfl) hb .arith fun _ _ hsame hsame' => by
      rw [same, beq_self_eq_true, hsame, hsame']
      rfl
  | .neg a, h => by
    have ha := (renders a h).grouped (k := 6) (by decide)
    rw [text, String.toList_append]
    exact ha.unary (spells_arith .sub) .neg fun _ hsame => hsame
  | .call function args, h => by
    rw [text]
    cases args with
    | nil => exact spelled_constant h.1 (by simp [same, sameAll])
    | cons a rest =>
      exact (rendersArgs (a :: rest) h.2 nofun).call h.1 fun _ hsame => by simp [same, hsame]

/-- The texts of arguments are derived as arguments. -/
lemma Expr.rendersArgs : ∀ args : List Expr, Expr.AllWellFormed args → args ≠ [] →
    SpelledArgs (fun args' => Expr.sameAll args args' = true) (argsText args).toList
  | [], _, h => absurd rfl h
  | [a], h, _ => by
    have ha := (renders a h.1).loosen (Expr.tightness_pos a)
    exact ha.last fun _ hsame => by simp [sameAll, hsame]
  | a :: b :: rest, h, _ => by
    have ha := (renders a h.1).loosen (Expr.tightness_pos a)
    exact ha.more (rendersArgs (b :: rest) h.2 nofun) fun _ _ hsame hsames =>
      Bool.and_eq_true_iff.2 ⟨hsame, hsames⟩

end

end TableQuery
