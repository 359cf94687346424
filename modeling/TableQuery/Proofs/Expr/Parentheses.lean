import TableQuery.Proofs.Expr.Lexemes
import TableQuery.Proofs.Expr.WellFormed

/-!
# Parentheses

The text of an expression has as many parentheses as any text that is parsed as the expression
needs: a pair for each call, and one for each operand that binds less tightly than its place
requires. So a text with fewer of them is parsed as another expression, if at all.
-/

namespace TableQuery

open Grammar Text

/-- The opening parentheses of an expression at a place that requires level `k`, of which the
expression itself has `n`. -/
def Expr.opened (k tightness n : Nat) : Nat :=
  if tightness < k then n + 1 else n

mutual

/-- The number of opening parentheses in the text of an expression. -/
def Expr.openings : Expr → Nat
  | .literal _ | .name _ => 0
  | .or a b => opened 1 a.tightness a.openings + opened 2 b.tightness b.openings
  | .and a b => opened 2 a.tightness a.openings + opened 3 b.tightness b.openings
  | .not a => opened 3 a.tightness a.openings
  | .compare _ a b | .is a _ b =>
    opened 5 a.tightness a.openings + opened 5 b.tightness b.openings
  | .arith _ a b => opened 5 a.tightness a.openings + opened 6 b.tightness b.openings
  | .neg a => opened 6 a.tightness a.openings
  | .call _ args => 1 + Expr.allOpenings args

/-- The number of opening parentheses in the texts of arguments. -/
def Expr.allOpenings : List Expr → Nat
  | [] => 0
  | a :: rest => a.openings + Expr.allOpenings rest

end

section Needed

variable {k t n m : Nat}

/-- An operand gets at most one pair of parentheses. -/
lemma opened_le_succ : Expr.opened k t n ≤ n + 1 := by
  unfold Expr.opened
  split <;> omega

/-- Parentheses around an operand leave those within it. -/
lemma le_opened : n ≤ Expr.opened k t n := by
  unfold Expr.opened
  split <;> omega

/-- An expression that is tight enough needs no parentheses of its own. -/
lemma opened_le (h : k ≤ t) (hn : n ≤ m) : Expr.opened k t n ≤ m := by
  rwa [Expr.opened, if_neg (Nat.not_lt_of_le h)]

/-- A tighter place needs no fewer parentheses. -/
lemma opened_mono : Expr.opened k t n ≤ Expr.opened (k + 1) t n := by
  unfold Expr.opened
  split <;> split <;> omega

/-- Tokens of an expression open all the parentheses that its text has. -/
lemma Grammar.Derives.openings_le {ts : List Token} {e : Expr} (h : Derives k ts e) :
    Expr.opened k e.tightness e.openings ≤ ts.count .openParen := by
  induction h using Derives.rec (motive_2 := fun ts args _ =>
    Expr.allOpenings args ≤ ts.count .openParen) with
  | tighter _ ih => exact Nat.le_trans opened_mono ih
  | or _ _ iha ihb | and _ _ iha ihb | compare _ _ iha ihb | is _ _ iha ihb | isNot _ _ iha ihb
  | arith _ _ iha ihb =>
    refine opened_le (Nat.le_refl _) ?_
    rw [Expr.openings]
    simp only [List.count_append, List.count_cons]
    omega
  | not _ ih | neg _ ih =>
    refine opened_le (Nat.le_refl _) ?_
    rw [Expr.openings]
    simp only [List.count_cons]
    omega
  | group _ ih =>
    refine Nat.le_trans opened_le_succ ?_
    have := Nat.le_trans le_opened ih
    simp only [List.count_append, List.count_cons, beq_self_eq_true, if_true]
    omega
  | call _ ih =>
    refine opened_le (Nat.le_refl _) ?_
    rw [Expr.openings]
    simp only [List.count_append, List.count_cons, beq_self_eq_true, if_true]
    omega
  | constant =>
    exact opened_le (Nat.le_refl _) (Nat.le_refl _)
  | last _ ih => exact Nat.le_trans le_opened ih
  | more _ _ ih ihs =>
    simp only [List.count_append, List.count_cons]
    exact Nat.add_le_add (Nat.le_trans le_opened ih) ihs
  | _ => exact Nat.zero_le _

end Needed

mutual

/-- Same expressions need the same parentheses. -/
lemma Expr.openings_of_same : ∀ {a b : Expr}, a.same b = true →
    a.tightness = b.tightness ∧ a.openings = b.openings
  | .literal _, .literal _, _ | .name _, .name _, _ => ⟨rfl, rfl⟩
  | .or a b, .or c d, h | .and a b, .and c d, h => by
    rw [same, Bool.and_eq_true] at h
    obtain ⟨hac, hac'⟩ := openings_of_same h.1
    obtain ⟨hbd, hbd'⟩ := openings_of_same h.2
    exact ⟨rfl, by rw [openings, openings, hac, hac', hbd, hbd']⟩
  | .compare _ a b, .compare _ c d, h | .arith _ a b, .arith _ c d, h
  | .is a _ b, .is c _ d, h => by
    rw [same, Bool.and_eq_true, Bool.and_eq_true] at h
    obtain ⟨hac, hac'⟩ := openings_of_same h.1.2
    obtain ⟨hbd, hbd'⟩ := openings_of_same h.2
    exact ⟨rfl, by rw [openings, openings, hac, hac', hbd, hbd']⟩
  | .not a, .not b, h | .neg a, .neg b, h => by
    rw [same] at h
    obtain ⟨hab, hab'⟩ := openings_of_same h
    exact ⟨rfl, by rw [openings, openings, hab, hab']⟩
  | .call _ as, .call _ bs, h => by
    rw [same, Bool.and_eq_true] at h
    exact ⟨rfl, by rw [openings, openings, allOpenings_of_same h.2]⟩

/-- Arguments that are the same open the same number of parentheses. -/
lemma Expr.allOpenings_of_same : ∀ {as bs : List Expr}, sameAll as bs = true →
    allOpenings as = allOpenings bs
  | [], [], _ => rfl
  | _ :: _, _ :: _, h => by
    rw [sameAll, Bool.and_eq_true] at h
    rw [allOpenings, allOpenings, (openings_of_same h.1).2, allOpenings_of_same h.2]

end

section Printed

variable {k n m : Nat} {a b : Expr} {s x y : String}

/-- A text in parentheses opens one more than the text. -/
lemma opens_parens (h : Opens s.toList n) : Opens ("(" ++ s ++ ")").toList (n + 1) := by
  have opened : Opens ['('] 1 := opens_of_notMem (by decide)
  have closed : Opens [')'] 0 := opens_of_notMem (by decide)
  rw [String.toList_append, String.toList_append, Nat.add_comm]
  exact (opened.append h).append closed

/-- An operand opens the parentheses that it needs at its place. -/
lemma Expr.opens_grouped (h : Opens a.text.toList a.openings) :
    Opens (grouped (a.tightness < k) a.text).toList (opened k a.tightness a.openings) := by
  unfold grouped opened
  by_cases hk : a.tightness < k
  · rw [if_pos (decide_eq_true hk), if_pos hk]
    exact opens_parens h
  · rw [if_neg (by simpa using hk), if_neg hk]
    exact h

/-- What stands between two operands opens no parentheses. -/
lemma opens_between {op : String} (hop : Plain op.toList) (h : Opens x.toList n)
    (h' : Opens y.toList m) : Opens (x ++ op ++ y).toList (n + m) := by
  rw [String.toList_append, String.toList_append]
  exact (h.append hop.opens).append h'

/-- An operator with blanks around it opens no parentheses. -/
lemma opens_spaced {op : String} (hop : Plain op.toList) (h : Opens x.toList n)
    (h' : Opens y.toList m) : Opens (x ++ " " ++ op ++ " " ++ y).toList (n + m) := by
  have hblank : Plain " ".toList := by decide
  have hspaced : Plain (" " ++ op ++ " ").toList := by
    rw [String.toList_append, String.toList_append]
    exact (hblank.append hop).append hblank
  have := opens_between hspaced h h'
  rwa [← String.append_assoc, ← String.append_assoc] at this

/-- An operator before an operand opens no parentheses. -/
lemma opens_prefixed {op : String} (hop : Plain op.toList) (h : Opens x.toList n) :
    Opens (op ++ x).toList n := by
  rw [String.toList_append, ← Nat.zero_add n]
  exact hop.opens.append h

/-- A name opens no parentheses. -/
lemma opens_identifier (h : Word.isIdentifier s.toList = true) : Opens s.toList 0 :=
  (spells_identifier h).lexes.opens

/-- A literal opens no parentheses. -/
lemma Literal.opens {l : Literal} (h : l.WellFormed) : Opens l.text.toList 0 := by
  cases l with
  | string s => exact (spells_quoted s).lexes.opens
  | int n =>
    rw [Literal.text, Decimal.toList_intText_of_nonneg h, ← Decimal.Numeral.text_ofNat _ 'E']
    exact (spells_numeral _ (.inr rfl)).lexes.opens
  | decimal d =>
    obtain ⟨n, mark, hm, htext, -⟩ := Decimal.literalText_eq_text h
    rw [Literal.text, htext]
    exact (spells_numeral n hm).lexes.opens
  | bool b => cases b <;> exact opens_of_notMem (by decide)
  | null => exact opens_of_notMem (by decide)

/-- No token of a step opens a parenthesis. -/
lemma Grammar.AreSteps.count {ts : List Token} {steps : List Step} (h : AreSteps ts steps) :
    ts.count .openParen = 0 := by
  induction h with
  | nil => rfl
  | cons hstep _ ih =>
    rw [List.count_append, ih]
    cases hstep <;> rfl

/-- A path opens no parentheses. -/
lemma Path.opens {path : Path} (h : path.WellFormed) : Opens path.text.toList 0 := by
  obtain ⟨name, steps, hpath, hname⟩ := h
  obtain ⟨ts, hts, -, hsteps⟩ := spells_steps steps
  have hopens := hts.lexes.opens
  rw [hsteps.count] at hopens
  unfold Path.text
  rw [hpath]
  dsimp only [Step.rootText]
  rw [if_pos hname, String.toList_append]
  exact (opens_identifier hname).append hopens

end Printed

mutual

/-- The text of an expression opens the parentheses that it needs. -/
lemma Expr.opens : ∀ e : Expr, e.WellFormed → Opens e.text.toList e.openings
  | .literal _, h => Literal.opens h
  | .name _, h => Path.opens h
  | .or a b, h | .and a b, h => by
    rw [text, openings]
    exact opens_between (by decide) (opens_grouped (opens a h.1)) (opens_grouped (opens b h.2))
  | .compare op a b, h | .arith op a b, h => by
    have hop : Plain op.text.toList := by
      cases op <;> decide
    rw [text, openings]
    exact opens_spaced hop (opens_grouped (opens a h.1)) (opens_grouped (opens b h.2))
  | .is a negated b, h => by
    have hop : Plain (if negated then " is not " else " is ").toList := by
      cases negated <;> decide
    rw [text, openings]
    exact opens_between hop (opens_grouped (opens a h.1)) (opens_grouped (opens b h.2))
  | .not a, h | .neg a, h => by
    rw [text, openings]
    exact opens_prefixed (by decide) (opens_grouped (opens a h))
  | .call f args, h => by
    have hcall := (opens_identifier h.1).append (opens_parens (allOpens args h.2))
    rw [text, openings, String.append_assoc, String.append_assoc, String.toList_append]
    rwa [Nat.zero_add, Nat.add_comm, String.append_assoc] at hcall

/-- The texts of well-formed arguments open the parentheses that are counted for them. -/
lemma Expr.allOpens : ∀ args : List Expr, Expr.AllWellFormed args →
    Opens (argsText args).toList (allOpenings args)
  | [], _ => opens_nil
  | [a], h => opens a h.1
  | a :: b :: rest, h => opens_between (by decide) (opens a h.1) (allOpens (b :: rest) h.2)

end

/-- Tokens that are parsed as an expression open the parentheses that its text needs, or more. -/
lemma Expr.openings_le_of_parse {e e' : Expr} {text : String} (h : Expr.parse text = .ok e')
    (hsame : e.same e' = true) : e.openings ≤ (bare text.toList).count '(' := by
  obtain ⟨ts, hts, he⟩ := Expr.parse_eq_ok_iff.1 h
  calc e.openings
    _ = e'.openings := (openings_of_same hsame).2
    _ ≤ opened 1 e'.tightness e'.openings := le_opened
    _ ≤ ts.count .openParen := he.openings_le
    _ = (bare text.toList).count '(' := hts.opens.2.symm

/-- A parenthesis is opened at the place `i` of a text with these tokens, and at the place `j`
somewhere behind it one is closed. -/
def Encloses (sp : List Spanned) (i j : Nat) : Prop :=
  ∃ pre mid post, sp = pre ++ ⟨.openParen, i⟩ :: (mid ++ ⟨.closeParen, j⟩ :: post)

/-- A text without the characters at two places, of which `i` is the first. -/
def Text.without (text : String) (i j : Nat) : String :=
  String.ofList ((text.toList.eraseIdx j).eraseIdx i)

section Pairs

variable {n i j : Nat} {s rest : List Char} {pre sp : List Spanned}

/-- A parenthesis among the tokens of a text stands at its place. -/
lemma Cuts.paren {t : Token} {c : Char} (ht : ∀ w, (w, t) ∈ Token.symbols ↔ w = [c])
    (h : Cuts n s (pre ++ ⟨t, i⟩ :: sp) rest) :
    ∃ before r, s = before ++ c :: r ∧ i = n + before.length ∧ Cuts (i + 1) r sp rest
      ∧ Opens before ((pre.map Spanned.token).count .openParen) := by
  obtain ⟨before, d, r, mid, rfl, hi, hpre, -, hread, hmore⟩ := h.locate
  obtain ⟨w, hw, hr⟩ := read_symbol ((ht [c]).2 rfl) hread
  rw [(ht w).1 hw] at hr
  obtain ⟨rfl, rfl⟩ := List.cons.inj hr
  obtain ⟨before', hs, hopens⟩ := hpre.opens
  have hbefore := List.append_cancel_right hs
  rw [List.length_cons, Nat.add_sub_cancel_left] at hmore
  exact ⟨before, r, rfl, hi, hmore, hbefore ▸ hopens⟩

/-- A character is taken away at its place. -/
lemma eraseIdx_length (s r : List Char) (c : Char) : (s ++ c :: r).eraseIdx s.length = s ++ r := by
  rw [List.eraseIdx_append_of_length_le (Nat.le_refl _), Nat.sub_self, List.eraseIdx_zero,
    List.tail_cons]

/-- Without a parenthesis that is opened and one that is closed, a text opens one less. -/
lemma count_bare_without {text : String} (hsp : tokens text.toList = .ok sp)
    (h : Encloses sp i j) :
    (bare text.toList).count '(' = (bare (without text i j).toList).count '(' + 1 := by
  obtain ⟨pre, mid, post, rfl⟩ := h
  obtain ⟨before, r, hr, hi, hmore, hbefore⟩ :=
    (cuts_of_tokens hsp).paren (c := '(') (by simp [Token.symbols])
  obtain ⟨inside, after, rfl, hj, -, hinside⟩ :=
    hmore.paren (c := ')') (by simp [Token.symbols])
  have hwithout : (without text i j).toList = before ++ (inside ++ after) := by
    have hplace : j = (before ++ '(' :: inside).length := by
      rw [List.length_append, List.length_cons]
      omega
    rw [without, String.toList_ofList, hr, hplace, hi, Nat.zero_add, ← List.cons_append,
      ← List.append_assoc, eraseIdx_length, List.append_assoc, List.cons_append, eraseIdx_length]
  have hopened (r : List Char) : bare ('(' :: r) = '(' :: bare r := rfl
  have hclosed (r : List Char) : bare (')' :: r) = ')' :: bare r := rfl
  rw [hr, hwithout, hbefore.1, hopened, hinside.1, hclosed, hbefore.1, hinside.1]
  simp only [List.count_append, List.count_cons, beq_self_eq_true, if_true]
  rw [if_neg (by decide)]
  omega

end Pairs

/-- The text of an expression has no parentheses to spare: without one that is opened and one that
is closed behind it, whether they group an operand or enclose arguments, it is parsed as another
expression, if at all. Nor is any text with fewer of them parsed as the same expression. -/
theorem Expr.text_minimal {e : Expr} (h : e.WellFormed) :
    ∃ sp, tokens e.text.toList = .ok sp
      ∧ (∀ i j e', Encloses sp i j → Expr.parse (without e.text i j) = .ok e' → e.same e' = false)
      ∧ ∀ text e' sp', Expr.parse text = .ok e' → e.same e' = true →
        tokens text.toList = .ok sp' →
        (sp.map Spanned.token).count .openParen ≤ (sp'.map Spanned.token).count .openParen := by
  obtain ⟨ts, _, hts, -, -⟩ := Expr.renders e h
  obtain ⟨sp, hsp, -⟩ := readAll_of_lexes hts.lexes rfl
  have hcount : (bare e.text.toList).count '(' = e.openings := (Expr.opens e h).2
  refine ⟨sp, hsp, fun i j e' hij hparse => ?_, fun text e' sp' hparse hsame hsp' => ?_⟩
  · rw [← Bool.not_eq_true]
    intro hsame
    have hneeded := openings_le_of_parse hparse hsame
    have hfewer := count_bare_without hsp hij
    omega
  · rw [← (cuts_of_tokens hsp).lexes.opens.2, ← (cuts_of_tokens hsp').lexes.opens.2, hcount]
    exact openings_le_of_parse hparse hsame

/-- A disjunction behind `not` would be one of a negation without its parentheses. -/
theorem Expr.text_minimal_not :
    let e : Expr := .not (.or (.name ⟨[.key "a"]⟩) (.name ⟨[.key "b"]⟩))
    let sp : List Spanned := [⟨.keyword .not, 0⟩, ⟨.openParen, 4⟩, ⟨.identifier "a", 5⟩,
      ⟨.keyword .or, 7⟩, ⟨.identifier "b", 10⟩, ⟨.closeParen, 11⟩]
    e.WellFormed ∧ tokens e.text.toList = .ok sp ∧ Encloses sp 4 11
      ∧ without e.text 4 11 = "not a or b"
      ∧ ∃ e', Expr.parse "not a or b" = .ok e' ∧ e.same e' = false := by
  intro e sp
  have hname (name : String) (h : Word.isIdentifier name.toList = true) :
      (Expr.name ⟨[.key name]⟩).WellFormed := ⟨name, [], rfl, h⟩
  have h : e.WellFormed := ⟨hname "a" (by decide), hname "b" (by decide)⟩
  have hsp : tokens e.text.toList = .ok sp := by decide +kernel
  have hij : Encloses sp 4 11 :=
    ⟨[_], [_, _, _], [], rfl⟩
  have hwithout : without e.text 4 11 = "not a or b" := by decide +kernel
  have hparse : (Expr.parse "not a or b").toOption.any (fun _ => true) = true := by decide +kernel
  obtain ⟨e', he', -⟩ := exists_of_any_toOption hparse
  obtain ⟨sp', hsp', hminimal, -⟩ := Expr.text_minimal h
  cases hsp.symm.trans hsp'
  exact ⟨h, hsp, hij, hwithout, e', he', hminimal 4 11 e' hij (hwithout ▸ he')⟩

end TableQuery
