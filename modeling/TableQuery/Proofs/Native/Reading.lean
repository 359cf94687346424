import Mathlib.Tactic.Common
import TableQuery.Native.Condition
import TableQuery.Path
import TableQuery.Proofs.Expr.Lexing
import TableQuery.Stored.Basic

/-!
# The language of the store

The texts that are conditions of the store, and what they mean once their placeholders are looked
up. The grammar does not say which of `NOT`, `AND` and `OR` binds tighter: a text has to say what it
means by its parentheses, or it has several meanings. A test by itself never has more than one.
-/

namespace TableQuery.Native

/-- An operand with names and constants in place of their placeholders. -/
inductive ResolvedOperand where
  | value (v : Stored)
  | path (steps : List TableQuery.Step)
  | size (steps : List TableQuery.Step)
  deriving DecidableEq

/-- A condition with names and constants in place of their placeholders. -/
inductive Resolved where
  | compare (op : Comparison) (left right : ResolvedOperand)
  | and (left right : Resolved)
  | or (left right : Resolved)
  | not (c : Resolved)
  | exists (steps : List TableQuery.Step)
  | notExists (steps : List TableQuery.Step)
  | type (steps : List TableQuery.Step) (tag : Stored)
  deriving DecidableEq

/-- The application of a function of the store. -/
def call (function : String) (arguments : List Char) : List Char :=
  function.toList ++ '(' :: (arguments ++ [')'])

/-- Two arguments. -/
def pair (s t : List Char) : List Char :=
  s ++ ',' :: ' ' :: t

section Grammar

variable (names : Fields String) (values : Fields Stored)

/-- The placeholder of an attribute name. -/
inductive ReadsName : List Char → String → Prop where
  | mk {ds name} :
    ds.all Char.isDigit = true →
    Fields.get? (String.ofList ('#' :: 'n' :: ds)) names = some name →
    ReadsName ('#' :: 'n' :: ds) name

/-- The placeholder of a constant. -/
inductive ReadsValue : List Char → Stored → Prop where
  | mk {ds v} :
    ds.all Char.isDigit = true →
    Fields.get? (String.ofList (':' :: 'v' :: ds)) values = some v →
    ReadsValue (':' :: 'v' :: ds) v

/-- The steps of a path behind its first name. -/
inductive ReadsSteps : List Char → List TableQuery.Step → Prop where
  | nil :
    ReadsSteps [] []
  | name {s t name steps} :
    ReadsName names s name →
    ReadsSteps t steps →
    ReadsSteps ('.' :: (s ++ t)) (.key name :: steps)
  | index {ds t i steps} :
    Text.natOfDigits? ds = some i.toNat →
    ReadsSteps t steps →
    ReadsSteps ('[' :: (ds ++ ']' :: t)) (.index i :: steps)

/-- A path. -/
inductive ReadsPath : List Char → List TableQuery.Step → Prop where
  | mk {s t name steps} :
    ReadsName names s name →
    ReadsSteps names t steps →
    ReadsPath (s ++ t) (.key name :: steps)

/-- An operand. -/
inductive ReadsOperand : List Char → ResolvedOperand → Prop where
  | value {s v} :
    ReadsValue values s v →
    ReadsOperand s (.value v)
  | path {s steps} :
    ReadsPath names s steps →
    ReadsOperand s (.path steps)
  | size {s steps} :
    ReadsPath names s steps →
    ReadsOperand (call "size" s) (.size steps)

/-- A condition without `NOT`, `AND` and `OR`. -/
inductive ReadsTest : List Char → Resolved → Prop where
  | compare {op s t l r} :
    op ≠ .beginsWith →
    ReadsOperand names values s l →
    ReadsOperand names values t r →
    ReadsTest (s ++ ' ' :: (op.text.toList ++ ' ' :: t)) (.compare op l r)
  | beginsWith {s t l r} :
    ReadsOperand names values s l →
    ReadsOperand names values t r →
    ReadsTest (call "begins_with" (pair s t)) (.compare .beginsWith l r)
  | exists {s steps} :
    ReadsPath names s steps →
    ReadsTest (call "attribute_exists" s) (.exists steps)
  | notExists {s steps} :
    ReadsPath names s steps →
    ReadsTest (call "attribute_not_exists" s) (.notExists steps)
  | type {s t steps v} :
    ReadsPath names s steps →
    ReadsValue values t v →
    ReadsTest (call "attribute_type" (pair s t)) (.type steps v)

/-- A condition. -/
inductive Reads : List Char → Resolved → Prop where
  | test {s m} :
    ReadsTest names values s m →
    Reads s m
  | group {s m} :
    Reads s m →
    Reads ('(' :: (s ++ [')'])) m
  | and {s t l r} :
    Reads s l →
    Reads t r →
    Reads (s ++ " AND ".toList ++ t) (.and l r)
  | or {s t l r} :
    Reads s l →
    Reads t r →
    Reads (s ++ " OR ".toList ++ t) (.or l r)
  | not {s m} :
    Reads s m →
    Reads ("NOT ".toList ++ s) (.not m)

end Grammar

section Splitting

variable {s s' t t' : List Char}

/-- A text has only one part in front that ends where the first character of another kind stands. -/
lemma split_unique {p : Char → Bool} (hs : ∀ c ∈ s, p c = true) (hs' : ∀ c ∈ s', p c = true)
    (ht : ∀ c ∈ t.head?, p c = false) (ht' : ∀ c ∈ t'.head?, p c = false)
    (h : s ++ t = s' ++ t') : s = s' ∧ t = t' := by
  obtain ⟨htake, hdrop⟩ := span_append hs ht
  obtain ⟨htake', hdrop'⟩ := span_append hs' ht'
  rw [h] at htake hdrop
  exact ⟨htake.symm.trans htake', hdrop.symm.trans hdrop'⟩

/-- A text has only one part in front of the first place where a character stands. -/
lemma split_at_unique {c : Char} (hs : c ∉ s) (hs' : c ∉ s') (h : s ++ c :: t = s' ++ c :: t') :
    s = s' ∧ t = t' := by
  have other : ∀ {u : List Char}, c ∉ u → ∀ d ∈ u, (d != c) = true := fun hu d hd =>
    bne_iff_ne.2 fun heq => hu (heq ▸ hd)
  have stop : ∀ {u : List Char}, ∀ d ∈ (c :: u).head?, (d != c) = false := by
    rintro u d ⟨⟩
    simp
  obtain ⟨hss', htt'⟩ := split_unique (p := (· != c)) (other hs) (other hs') stop stop h
  exact ⟨hss', (List.cons.inj htt').2⟩

end Splitting

section Uniqueness

variable {names : Fields String} {values : Fields Stored} {s s' t t' : List Char}

/-- A text is the placeholder of at most one value. -/
lemma ReadsValue.unique {v v' : Stored} (h : ReadsValue values s v)
    (h' : ReadsValue values s v') : v = v' := by
  cases h with
  | mk _ hget =>
    cases h' with
    | mk _ hget' => exact Option.some.inj (hget.symm.trans hget')

/-- The steps behind a name do not begin with a digit, so that its number ends in front of them. -/
lemma ReadsSteps.head {steps : List TableQuery.Step} (h : ReadsSteps names s steps) :
    ∀ c ∈ s.head?, c.isDigit = false := by
  cases h with
  | nil => exact nofun
  | name _ _ =>
    rintro c ⟨⟩
    decide
  | index _ _ =>
    rintro c ⟨⟩
    decide

/-- A name ends in front of the steps behind it. -/
lemma ReadsName.split {name name' : String} {steps steps' : List TableQuery.Step}
    (h : ReadsName names s name) (ht : ReadsSteps names t steps)
    (h' : ReadsName names s' name') (ht' : ReadsSteps names t' steps')
    (heq : s ++ t = s' ++ t') : name = name' ∧ t = t' := by
  cases h with
  | mk hds hget =>
    cases h' with
    | mk hds' hget' =>
      injection heq with _ heq
      injection heq with _ heq
      obtain ⟨rfl, htt'⟩ := split_unique (List.all_eq_true.1 hds) (List.all_eq_true.1 hds')
        ht.head ht'.head heq
      exact ⟨Option.some.inj (hget.symm.trans hget'), htt'⟩

/-- A text is read as steps in one way only. -/
lemma ReadsSteps.unique {steps steps' : List TableQuery.Step} (h : ReadsSteps names s steps)
    (h' : ReadsSteps names s steps') : steps = steps' := by
  -- on the first reading; the second one has to take the same step at the same character
  induction h generalizing steps' with
  | nil => cases h' with
    | nil => rfl
  | name hname ht ih =>
    generalize hs : '.' :: _ = u at h'
    cases h' with
    | nil => cases hs
    | name hname' ht' =>
      obtain ⟨rfl, rfl⟩ := hname.split ht hname' ht' (List.cons.inj hs).2
      rw [ih ht']
    | index _ _ => cases hs
  | index hi ht ih =>
    generalize hs : '[' :: _ = u at h'
    cases h' with
    | nil => cases hs
    | name _ _ => cases hs
    | index hi' ht' =>
      have hbracket : ∀ {ds : List Char} {n}, Text.natOfDigits? ds = some n → ']' ∉ ds :=
        fun hn hmem => absurd
          (List.all_eq_true.1 (Text.all_isDigit_of_natOfDigits? hn) ']' hmem) (by decide)
      obtain ⟨rfl, rfl⟩ := split_at_unique (hbracket hi) (hbracket hi') (List.cons.inj hs).2
      rw [ih ht', UInt64.toNat_inj.1 (Option.some.inj (hi.symm.trans hi'))]

/-- A text is read as a path in one way only. -/
lemma ReadsPath.unique {steps steps' : List TableQuery.Step} (h : ReadsPath names s steps)
    (h' : ReadsPath names s steps') : steps = steps' := by
  cases h with
  | @mk s t _ _ hname ht =>
    generalize hs : s ++ t = u at h'
    cases h' with
    | mk hname' ht' =>
      obtain ⟨rfl, rfl⟩ := hname.split ht hname' ht' hs
      rw [ht.unique ht']

/-- The characters of placeholders and paths. -/
def isPlain (c : Char) : Bool :=
  c.isDigit || "#n.[]:v".toList.contains c

/-- Digits are plain. -/
lemma isPlain_of_isDigit {c : Char} (h : c.isDigit = true) : isPlain c = true := by
  rw [isPlain, h, Bool.true_or]

/-- The placeholder of a name has only plain characters. -/
lemma ReadsName.plain {name : String} (h : ReadsName names s name) :
    ∀ c ∈ s, isPlain c = true := by
  cases h with
  | mk hds _ =>
    rw [List.forall_mem_cons, List.forall_mem_cons]
    exact ⟨by decide, by decide, fun c hc => isPlain_of_isDigit (List.all_eq_true.1 hds c hc)⟩

/-- The placeholder of a value has only plain characters. -/
lemma ReadsValue.plain {v : Stored} (h : ReadsValue values s v) : ∀ c ∈ s, isPlain c = true := by
  cases h with
  | mk hds _ =>
    rw [List.forall_mem_cons, List.forall_mem_cons]
    exact ⟨by decide, by decide, fun c hc => isPlain_of_isDigit (List.all_eq_true.1 hds c hc)⟩

/-- Steps have only plain characters. -/
lemma ReadsSteps.plain {steps : List TableQuery.Step} (h : ReadsSteps names s steps) :
    ∀ c ∈ s, isPlain c = true := by
  induction h with
  | nil => exact nofun
  | name hname _ ih =>
    rw [List.forall_mem_cons, List.forall_mem_append]
    exact ⟨by decide, hname.plain, ih⟩
  | index hi _ ih =>
    rw [List.forall_mem_cons, List.forall_mem_append, List.forall_mem_cons]
    have hds := List.all_eq_true.1 (Text.all_isDigit_of_natOfDigits? hi)
    exact ⟨by decide, fun c hc => isPlain_of_isDigit (hds c hc), by decide, ih⟩

/-- A path has only plain characters. -/
lemma ReadsPath.plain {steps : List TableQuery.Step} (h : ReadsPath names s steps) :
    ∀ c ∈ s, isPlain c = true := by
  cases h with
  | mk hname ht => exact List.forall_mem_append.2 ⟨hname.plain, ht.plain⟩

/-- An operand has only plain characters, or is the size of a path, which has. -/
lemma ReadsOperand.plain_or_size {o : ResolvedOperand} (h : ReadsOperand names values s o) :
    (∀ c ∈ s, isPlain c = true)
      ∨ ∃ t, s = call "size" t ∧ ∀ c ∈ t, isPlain c = true := by
  cases h with
  | value hv => exact .inl hv.plain
  | path hp => exact .inl hp.plain
  | size hp => exact .inr ⟨_, rfl, hp.plain⟩

/-- A character that is neither plain nor in `size()` stands in no operand. -/
lemma ReadsOperand.notMem {o : ResolvedOperand} (h : ReadsOperand names values s o) {c : Char}
    (hplain : isPlain c = false) (hsize : c ∉ "size()".toList) : c ∉ s := by
  have hnot : ∀ {t : List Char}, (∀ d ∈ t, isPlain d = true) → c ∉ t := fun ht hc =>
    Bool.false_ne_true (hplain.symm.trans (ht c hc))
  rcases h.plain_or_size with hs | ⟨t, rfl, ht⟩
  · exact hnot hs
  · have := hnot ht
    simp [call] at hsize ⊢
    tauto

/-- The letters of words. -/
def isLetter (c : Char) : Bool :=
  c.isLower || c == '_'

/-- The word that an operand begins with. -/
def ResolvedOperand.word : ResolvedOperand → String
  | .size _ => "size"
  | _ => ""

/-- The word that a test begins with. -/
def Resolved.word : Resolved → String
  | .compare .beginsWith _ _ => "begins_with"
  | .compare _ l _ => l.word
  | .exists _ => "attribute_exists"
  | .notExists _ => "attribute_not_exists"
  | .type .. => "attribute_type"
  | _ => ""

/-- The placeholder of a value begins with a colon. -/
lemma ReadsValue.head {v : Stored} (h : ReadsValue values s v) : s.head? = some ':' := by
  cases h
  rfl

/-- A path begins with the sign of a name. -/
lemma ReadsPath.head {steps : List TableQuery.Step} (h : ReadsPath names s steps) :
    s.head? = some '#' := by
  cases h with
  | mk hname _ =>
    cases hname
    rfl

/-- What begins with no letter begins with no word. -/
lemma takeWhile_of_head {c : Char} (h : s.head? = some c) (hc : isLetter c = false) :
    (s ++ t).takeWhile isLetter = [] := by
  obtain ⟨r, rfl⟩ := List.head?_eq_some_iff.1 h
  rw [List.cons_append, List.takeWhile_cons_of_neg (by simp [hc])]

/-- The name of a function ends in front of its parenthesis. -/
lemma takeWhile_function {function : String} (h : function.toList.all isLetter = true) :
    (function.toList ++ '(' :: t).takeWhile isLetter = function.toList := by
  refine (span_append (List.all_eq_true.1 h) ?_).1
  rintro c ⟨⟩
  decide

/-- Two calls of a function that are one text have one argument. -/
lemma call_inj {function : String} (h : call function s = call function t) : s = t :=
  List.append_cancel_right (List.cons.inj (List.append_cancel_left h)).2

/-- The first of two arguments ends at the comma. -/
lemma pair_inj (hs : ',' ∉ s) (hs' : ',' ∉ s') (h : pair s t = pair s' t') : s = s' ∧ t = t' := by
  obtain ⟨hss', htt'⟩ := split_at_unique hs hs' h
  exact ⟨hss', (List.cons.inj htt').2⟩

/-- The word of an operand is the one in front of it, whatever comes behind. -/
lemma ReadsOperand.word {o : ResolvedOperand} (h : ReadsOperand names values s o)
    (t : List Char) : (s ++ t).takeWhile isLetter = o.word.toList := by
  cases h with
  | value hv => exact takeWhile_of_head hv.head (by decide)
  | path hp => exact takeWhile_of_head hp.head (by decide)
  | size _ =>
    rw [call, List.append_assoc]
    exact takeWhile_function (by decide)

/-- The word of a comparison is that of its left operand. -/
lemma Resolved.word_compare {op : Comparison} (hop : op ≠ .beginsWith) (l r : ResolvedOperand) :
    (Resolved.compare op l r).word = l.word := by
  cases op with
  | beginsWith => exact absurd rfl hop
  | _ => rfl

/-- The word of a test is the one in front of it. -/
lemma ReadsTest.word {m : Resolved} (h : ReadsTest names values s m) :
    s.takeWhile isLetter = m.word.toList := by
  cases h with
  | compare hop hl _ =>
    rw [Resolved.word_compare hop]
    exact hl.word _
  | _ => exact takeWhile_function (by decide)

/-- A text is read as an operand in one way only. -/
lemma ReadsOperand.unique {o o' : ResolvedOperand} (h : ReadsOperand names values s o)
    (h' : ReadsOperand names values s o') : o = o' := by
  have hword := String.toList_inj.1 ((h.word []).symm.trans (h'.word []))
  cases h with
  | value hv =>
    cases h' with
    | value hv' => rw [hv.unique hv']
    | path hp' => cases hv.head.symm.trans hp'.head
    | size _ => simp [ResolvedOperand.word] at hword
  | path hp =>
    cases h' with
    | value hv' => cases hp.head.symm.trans hv'.head
    | path hp' => rw [hp.unique hp']
    | size _ => simp [ResolvedOperand.word] at hword
  | @size s steps hp =>
    generalize hs : call "size" s = u at h'
    cases h' with
    | value _ => simp [ResolvedOperand.word] at hword
    | path _ => simp [ResolvedOperand.word] at hword
    | size hp' =>
      obtain rfl := call_inj hs
      rw [hp.unique hp']

/-- No comparison that is written with an operator begins with the word of another test. -/
lemma Resolved.word_compare_ne {op : Comparison} (hop : op ≠ .beginsWith) {l r : ResolvedOperand}
    {word : String} (hword : word ∉ ["", "size"]) : (Resolved.compare op l r).word ≠ word := by
  rintro rfl
  rw [Resolved.word_compare hop] at hword
  cases l <;> simp [ResolvedOperand.word] at hword

/-- No two comparisons have the same text. -/
lemma comparison_eq_of_text {op op' : Comparison} (h : op.text.toList = op'.text.toList) :
    op = op' := by
  cases op <;> cases op' <;> first | rfl | exact absurd h (by decide)

/-- A comparison has no blank in its text. -/
lemma blank_notMem_comparison (op : Comparison) : ' ' ∉ op.text.toList := by
  cases op <;> decide

/-- A test has one meaning. -/
lemma ReadsTest.unique {m m' : Resolved} (h : ReadsTest names values s m)
    (h' : ReadsTest names values s m') : m = m' := by
  -- tests of different kinds begin with different words, which leaves the cases of one kind
  have hword := String.toList_inj.1 (h.word.symm.trans h'.word)
  cases h with
  | @compare op s t l r hop hl hr =>
    generalize hs : s ++ _ = u at h'
    cases h' with
    | compare hop' hl' hr' =>
      -- no operand and no operator has a blank in it
      obtain ⟨rfl, htail⟩ :=
        split_at_unique (hl.notMem (by decide) (by decide)) (hl'.notMem (by decide) (by decide)) hs
      obtain ⟨hop, rfl⟩ :=
        split_at_unique (blank_notMem_comparison _) (blank_notMem_comparison _) htail
      rw [comparison_eq_of_text hop, hl.unique hl', hr.unique hr']
    | _ => exact absurd hword (Resolved.word_compare_ne hop (by simp [Resolved.word]))
  | @beginsWith s t l r hl hr =>
    generalize hs : call _ _ = u at h'
    cases h' with
    | compare hop' _ _ =>
      exact absurd hword.symm (Resolved.word_compare_ne hop' (by simp [Resolved.word]))
    | beginsWith hl' hr' =>
      obtain ⟨rfl, rfl⟩ := pair_inj (hl.notMem (by decide) (by decide))
        (hl'.notMem (by decide) (by decide)) (call_inj hs)
      rw [hl.unique hl', hr.unique hr']
    | _ => simp [Resolved.word] at hword
  | @«exists» s steps hp =>
    generalize hs : call _ _ = u at h'
    cases h' with
    | compare hop' _ _ =>
      exact absurd hword.symm (Resolved.word_compare_ne hop' (by simp [Resolved.word]))
    | «exists» hp' =>
      obtain rfl := call_inj hs
      rw [hp.unique hp']
    | _ => simp [Resolved.word] at hword
  | @notExists s steps hp =>
    generalize hs : call _ _ = u at h'
    cases h' with
    | compare hop' _ _ =>
      exact absurd hword.symm (Resolved.word_compare_ne hop' (by simp [Resolved.word]))
    | notExists hp' =>
      obtain rfl := call_inj hs
      rw [hp.unique hp']
    | _ => simp [Resolved.word] at hword
  | @type s t steps v hp hv =>
    generalize hs : call _ _ = u at h'
    cases h' with
    | compare hop' _ _ =>
      exact absurd hword.symm (Resolved.word_compare_ne hop' (by simp [Resolved.word]))
    | type hp' hv' =>
      obtain ⟨rfl, rfl⟩ := pair_inj (fun hc => absurd (hp.plain _ hc) (by decide))
        (fun hc => absurd (hp'.plain _ hc) (by decide)) (call_inj hs)
      rw [hp.unique hp', hv.unique hv']
    | _ => simp [Resolved.word] at hword

end Uniqueness

end TableQuery.Native
