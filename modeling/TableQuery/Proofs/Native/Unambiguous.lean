import TableQuery.Proofs.Native.Reading

/-!
# Conditions with one meaning

What stands outside of all parentheses decides how a condition is taken apart. If every operand of
`NOT`, `AND` and `OR` is in parentheses, or is a test by itself, there is one way to do that, and so
the condition has one meaning.
-/

namespace TableQuery.Native

/-- The parentheses of a text that stands in `d` open ones close these and their own. -/
def Closes : Nat → List Char → Prop
  | d, [] => d = 0
  | d, c :: s =>
    if c = '(' then Closes (d + 1) s
    else if c = ')' then 0 < d ∧ Closes (d - 1) s
    else Closes d s

/-- The characters outside of all parentheses, of a text that stands in `d` open ones. -/
def outside : Nat → List Char → List Char
  | _, [] => []
  | d, c :: s =>
    if c = '(' then outside (d + 1) s
    else if c = ')' then outside (d - 1) s
    else if d = 0 then c :: outside d s
    else outside d s

section Parentheses

variable {d : Nat} {s s' t t' : List Char}

/-- A text behind one whose parentheses are closed. -/
lemma Closes.append (hs : Closes d s) (ht : Closes 0 t) : Closes d (s ++ t) := by
  induction s generalizing d with
  | nil =>
    cases hs
    exact ht
  | cons c s ih =>
    rw [List.cons_append]
    unfold Closes at hs ⊢
    split_ifs at hs ⊢
    · exact ih hs
    · exact ⟨hs.1, ih hs.2⟩
    · exact ih hs

/-- What is outside of parentheses in a text, and then in what stands behind it. -/
lemma Closes.outside_append (hs : Closes d s) :
    outside d (s ++ t) = outside d s ++ outside 0 t := by
  induction s generalizing d with
  | nil =>
    cases hs
    rfl
  | cons c s ih =>
    rw [List.cons_append]
    simp only [Closes, outside] at hs ⊢
    split_ifs at hs ⊢
    · exact ih hs
    · exact ih hs.2
    · rw [ih hs, List.cons_append]
    · exact ih hs

/-- Parentheses around a text close, and nothing of it is outside of them. -/
lemma Closes.parens (hs : Closes d s) :
    Closes (d + 1) (s ++ [')']) ∧ outside (d + 1) (s ++ [')']) = [] := by
  induction s generalizing d with
  | nil =>
    cases hs
    simp [Closes, outside]
  | cons c s ih =>
    rw [List.cons_append]
    simp only [Closes, outside, Nat.add_one_ne_zero, if_false] at hs ⊢
    split_ifs at hs ⊢
    · exact ih hs
    · obtain ⟨hd, hs⟩ := hs
      obtain ⟨d, rfl⟩ := Nat.exists_eq_add_one_of_ne_zero hd.ne'
      exact ⟨⟨Nat.succ_pos _, (ih hs).1⟩, (ih hs).2⟩
    · exact ih hs

/-- Where there are no parentheses everything is outside of them. -/
lemma closes_of_noParens (hs : '(' ∉ s ∧ ')' ∉ s) : Closes 0 s ∧ outside 0 s = s := by
  induction s with
  | nil => exact ⟨rfl, rfl⟩
  | cons c s ih =>
    rw [List.mem_cons, List.mem_cons, not_or, not_or] at hs
    unfold Closes outside
    rw [if_neg (Ne.symm hs.1.1), if_neg (Ne.symm hs.2.1), if_neg (Ne.symm hs.1.1),
      if_neg (Ne.symm hs.2.1), if_pos rfl]
    have := ih ⟨hs.1.2, hs.2.2⟩
    exact ⟨this.1, by rw [this.2]⟩

/-- A character outside of parentheses is one of the text. -/
lemma mem_of_mem_outside {c : Char} (h : c ∈ outside d s) : c ∈ s := by
  induction s generalizing d with
  | nil => exact h
  | cons e s ih =>
    unfold outside at h
    split_ifs at h
    · exact List.mem_cons_of_mem _ (ih h)
    · exact List.mem_cons_of_mem _ (ih h)
    · rcases List.mem_cons.1 h with rfl | h
      · exact List.mem_cons_self
      · exact List.mem_cons_of_mem _ (ih h)
    · exact List.mem_cons_of_mem _ (ih h)

/-- A text has only one part in front of the first place outside of parentheses where a character
stands. -/
lemma Closes.split_unique {c : Char} (hc : c ≠ '(' ∧ c ≠ ')') (hs : Closes d s) (hs' : Closes d s')
    (hcs : c ∉ outside d s) (hcs' : c ∉ outside d s') (h : s ++ c :: t = s' ++ c :: t') :
    s = s' ∧ t = t' := by
  -- as many parentheses are open at each place of the two parts, so that the part that ended first
  -- would end at a place where the other one has the character outside of its own
  induction s generalizing d s' with
  | nil =>
    cases s' with
    | nil => exact ⟨rfl, (List.cons.inj h).2⟩
    | cons e s' =>
      obtain ⟨rfl, -⟩ := List.cons.inj h
      cases hs
      exact absurd (by simp [outside, hc.1, hc.2]) hcs'
  | cons e s ih =>
    cases s' with
    | nil =>
      obtain ⟨rfl, -⟩ := List.cons.inj h
      cases hs'
      exact absurd (by simp [outside, hc.1, hc.2]) hcs
    | cons e' s' =>
      obtain ⟨rfl, htail⟩ := List.cons.inj h
      simp only [Closes, outside] at hs hs' hcs hcs'
      have step : ∀ {k}, Closes k s → Closes k s' → c ∉ outside k s → c ∉ outside k s' →
          e :: s = e :: s' ∧ t = t' := fun h₁ h₂ h₃ h₄ => by
        obtain ⟨rfl, rfl⟩ := ih h₁ h₂ h₃ h₄ htail
        exact ⟨rfl, rfl⟩
      split_ifs at hs hs' hcs hcs'
      · exact step hs hs' hcs hcs'
      · exact step hs.2 hs'.2 hcs hcs'
      · exact step hs hs' (List.not_mem_of_not_mem_cons hcs) (List.not_mem_of_not_mem_cons hcs')
      · exact step hs hs' hcs hcs'

/-- A character in front of a closed text, unless it is a parenthesis. -/
lemma Closes.cons {c : Char} (hc : c ≠ '(' ∧ c ≠ ')') (hs : Closes d s) : Closes d (c :: s) := by
  rw [Closes, if_neg hc.1, if_neg hc.2]
  exact hs

/-- A closed text in parentheses is closed. -/
lemma Closes.group (hs : Closes 0 s) : Closes 0 ('(' :: (s ++ [')'])) := by
  rw [Closes, if_pos rfl]
  exact hs.parens.1

/-- Nothing of a text in parentheses is outside of them. -/
lemma Closes.outside_group (hs : Closes 0 s) : outside 0 ('(' :: (s ++ [')'])) = [] := by
  rw [outside, if_pos rfl]
  exact hs.parens.2

end Parentheses

section Tests

variable {names : Fields String} {values : Fields Stored} {s t : List Char}

/-- Plain characters are no parentheses. -/
lemma closes_of_plain (h : ∀ c ∈ s, isPlain c = true) : Closes 0 s :=
  (closes_of_noParens ⟨fun hc => absurd (h _ hc) (by decide),
    fun hc => absurd (h _ hc) (by decide)⟩).1

/-- The call of a function closes its parentheses if its argument does. -/
lemma Closes.call {function : String} (hs : Closes 0 s)
    (hf : '(' ∉ function.toList ∧ ')' ∉ function.toList) : Closes 0 (call function s) :=
  (closes_of_noParens hf).1.append hs.group

/-- Two closed arguments with a comma between them are closed. -/
lemma Closes.pair (hs : Closes 0 s) (ht : Closes 0 t) : Closes 0 (pair s t) :=
  hs.append ((ht.cons (by decide)).cons (by decide))

-- from here on parentheses are closed by the lemmas above, not by counting them
attribute [local irreducible] Closes

/-- An operand closes its parentheses. -/
lemma ReadsOperand.closes {o : ResolvedOperand} (h : ReadsOperand names values s o) :
    Closes 0 s := by
  rcases h.plain_or_size with hs | ⟨t, rfl, ht⟩
  · exact closes_of_plain hs
  · exact (closes_of_plain ht).call (by decide)

/-- A test closes its parentheses. -/
lemma ReadsTest.closes {m : Resolved} (h : ReadsTest names values s m) : Closes 0 s := by
  cases h with
  | @compare op _ _ _ _ _ hl hr =>
    have hop : Closes 0 op.text.toList := by
      refine (closes_of_noParens ?_).1
      cases op <;> decide
    exact hl.closes.append ((hop.append (hr.closes.cons (by decide))).cons (by decide))
  | beginsWith hl hr => exact (hl.closes.pair hr.closes).call (by decide)
  | «exists» hp => exact (closes_of_plain hp.plain).call (by decide)
  | notExists hp => exact (closes_of_plain hp.plain).call (by decide)
  | type hp hv =>
    exact ((closes_of_plain hp.plain).pair (closes_of_plain hv.plain)).call (by decide)

/-- The word `AND` has no parentheses. -/
lemma closes_and : Closes 0 " AND ".toList :=
  (closes_of_noParens (s := " AND ".toList) (by decide)).1

/-- The word `OR` has no parentheses. -/
lemma closes_or : Closes 0 " OR ".toList :=
  (closes_of_noParens (s := " OR ".toList) (by decide)).1

/-- The word `NOT` has no parentheses. -/
lemma closes_not : Closes 0 "NOT ".toList :=
  (closes_of_noParens (s := "NOT ".toList) (by decide)).1

/-- A condition closes its parentheses. -/
lemma Reads.closes {m : Resolved} (h : Reads names values s m) : Closes 0 s := by
  induction h with
  | test h => exact h.closes
  | group _ ih => exact ih.group
  | and _ _ ihs iht => exact (ihs.append closes_and).append iht
  | or _ _ ihs iht => exact (ihs.append closes_or).append iht
  | not _ ih => exact closes_not.append ih

/-- The text has no capital letter. -/
def NoCapital (s : List Char) : Prop :=
  ∀ c ∈ s, c.isUpper = false

instance (s : List Char) : Decidable (NoCapital s) :=
  decidable_of_iff (s.all fun c => !c.isUpper) (by simp [NoCapital])

/-- A text of two parts has no capital letter if they have none. -/
lemma NoCapital.append (hs : NoCapital s) (ht : NoCapital t) : NoCapital (s ++ t) :=
  List.forall_mem_append.2 ⟨hs, ht⟩

/-- A text has no capital letter if neither its first character is one nor the rest has one. -/
lemma NoCapital.cons {c : Char} (hc : c.isUpper = false) (hs : NoCapital s) : NoCapital (c :: s) :=
  List.forall_mem_cons.2 ⟨hc, hs⟩

/-- Plain characters are no capital letters. -/
lemma noCapital_of_plain (h : ∀ c ∈ s, isPlain c = true) : NoCapital s := by
  intro c hc
  have hplain := h c hc
  rw [isPlain, Bool.or_eq_true] at hplain
  rcases hplain with hdigit | hmem
  · refine Bool.eq_false_iff.2 fun hupper => ?_
    have hcapital := Word.bounds_of_isUpper hupper
    have hcode : 48 ≤ c.toNat ∧ c.toNat ≤ 57 := Char.isDigit_iff_toNat.1 hdigit
    omega
  · have all : NoCapital "#n.[]:v".toList := by decide
    exact all c (List.contains_iff_mem.1 hmem)

/-- A call has no capital letter if its function and its argument have none. -/
lemma NoCapital.call {function : String} (hs : NoCapital s) (hf : NoCapital function.toList) :
    NoCapital (call function s) :=
  hf.append ((hs.append (by decide)).cons (by decide))

/-- Two arguments have no capital letter if neither of them has one. -/
lemma NoCapital.pair (hs : NoCapital s) (ht : NoCapital t) : NoCapital (pair s t) :=
  hs.append ((ht.cons (by decide)).cons (by decide))

/-- The words in capital letters stand in no operand. -/
lemma ReadsOperand.noCapital {o : ResolvedOperand} (h : ReadsOperand names values s o) :
    NoCapital s := by
  rcases h.plain_or_size with hs | ⟨t, rfl, ht⟩
  · exact noCapital_of_plain hs
  · exact (noCapital_of_plain ht).call (by decide)

/-- The words in capital letters stand in no test. -/
lemma ReadsTest.noCapital {m : Resolved} (h : ReadsTest names values s m) : NoCapital s := by
  cases h with
  | @compare op _ _ _ _ _ hl hr =>
    have hop : NoCapital op.text.toList := by cases op <;> decide
    exact hl.noCapital.append ((hop.append (hr.noCapital.cons (by decide))).cons (by decide))
  | beginsWith hl hr => exact (hl.noCapital.pair hr.noCapital).call (by decide)
  | «exists» hp => exact (noCapital_of_plain hp.plain).call (by decide)
  | notExists hp => exact (noCapital_of_plain hp.plain).call (by decide)
  | type hp hv =>
    exact ((noCapital_of_plain hp.plain).pair (noCapital_of_plain hv.plain)).call (by decide)

/-- A call begins with the name of its function. -/
lemma call_head {function : String} (h : function.toList.head?.or (some '(') ≠ some '(') :
    (call function s ++ t).head? ≠ some '(' := by
  rw [call, List.append_assoc, List.head?_append]
  exact h

/-- No operand begins with a parenthesis. -/
lemma ReadsOperand.head {o : ResolvedOperand} (h : ReadsOperand names values s o) :
    (s ++ t).head? ≠ some '(' := by
  cases h with
  | value hv => simp [List.head?_append, hv.head]
  | path hp => simp [List.head?_append, hp.head]
  | size _ => exact call_head (by decide)

/-- No test is in parentheses. -/
lemma ReadsTest.head {m : Resolved} (h : ReadsTest names values s m) : s.head? ≠ some '(' := by
  cases h with
  | compare _ hl _ => exact hl.head
  | _ =>
    rw [← List.append_nil (call _ _)]
    exact call_head (by decide)

end Tests

section Junctions

variable {s t u v : List Char}

/-- A word between two conditions, which a capital letter marks that it has once. -/
structure IsJunction (word : List Char) (mark : Char) : Prop where
  noParens : '(' ∉ word ∧ ')' ∉ word
  isUpper : mark.isUpper = true
  begins : word.head? = some ' '
  once : ∃ front back, word = front ++ mark :: back ∧ mark ∉ front ∧ mark ∉ back

/-- The `A` marks `AND`. -/
lemma isJunction_and : IsJunction " AND ".toList 'A' :=
  ⟨by decide, by decide, by decide, [' '], ['N', 'D', ' '], by decide, by decide, by decide⟩

/-- The `R` marks `OR`. -/
lemma isJunction_or : IsJunction " OR ".toList 'R' :=
  ⟨by decide, by decide, by decide, [' ', 'O'], [' '], by decide, by decide, by decide⟩

variable {word : List Char} {mark : Char}

/-- A word between conditions has no parentheses. -/
lemma IsJunction.closes (hw : IsJunction word mark) : Closes 0 word :=
  (closes_of_noParens hw.noParens).1

/-- What is outside of parentheses in two conditions with a word between them. -/
lemma IsJunction.outside_append (hw : IsJunction word mark) (hs : Closes 0 s) :
    outside 0 (s ++ word ++ t) = outside 0 s ++ (word ++ outside 0 t) := by
  rw [List.append_assoc, hs.outside_append, hw.closes.outside_append,
    (closes_of_noParens hw.noParens).2]

/-- A word between conditions has its mark. -/
lemma IsJunction.mark_mem (hw : IsJunction word mark) : mark ∈ word := by
  obtain ⟨front, back, rfl, -, -⟩ := hw.once
  exact List.mem_append_right _ List.mem_cons_self

/-- A word between conditions has its mark once. -/
lemma IsJunction.count (hw : IsJunction word mark) : word.count mark = 1 := by
  obtain ⟨front, back, rfl, hfront, hback⟩ := hw.once
  rw [List.count_append, List.count_cons_self, List.count_eq_zero.2 hfront,
    List.count_eq_zero.2 hback]

/-- The mark is in no text without capital letters. -/
lemma IsJunction.notMem (hw : IsJunction word mark) (hs : NoCapital s) : mark ∉ s := fun h =>
  Bool.false_ne_true ((hs _ h).symm.trans hw.isUpper)

/-- Two conditions without capital letters outside of parentheses are joined in one way only. -/
lemma IsJunction.split (hw : IsJunction word mark) (hs : Closes 0 s) (hu : Closes 0 u)
    (hso : NoCapital (outside 0 s)) (hto : NoCapital (outside 0 t))
    (h : u ++ word ++ v = s ++ word ++ t) : u = s ∧ v = t := by
  -- the mark is outside of parentheses once, and that is in the word on the right, so that on the
  -- left it is in the word as well
  have hcount := congrArg (fun r => List.count mark (outside 0 r)) h
  have hmark : mark ∉ outside 0 u := by
    simp only [hw.outside_append hs, hw.outside_append hu, List.count_append, hw.count,
      List.count_eq_zero.2 (hw.notMem hso), List.count_eq_zero.2 (hw.notMem hto)] at hcount
    exact List.count_eq_zero.1 (by omega)
  -- both texts are cut at the mark, and what is in front of it in the word is the same
  obtain ⟨front, back, rfl, hfront, -⟩ := hw.once
  have hplain : Closes 0 front ∧ outside 0 front = front :=
    closes_of_noParens ⟨fun h => hw.noParens.1 (List.mem_append_left _ h),
      fun h => hw.noParens.2 (List.mem_append_left _ h)⟩
  have hnotMem : ∀ {r}, Closes 0 r → mark ∉ outside 0 r → mark ∉ outside 0 (r ++ front) := by
    intro r hr hmark
    rw [hr.outside_append, hplain.2]
    exact List.not_mem_append hmark hfront
  have hparens : mark ≠ '(' ∧ mark ≠ ')' :=
    ⟨fun h => hw.noParens.1 (h ▸ hw.mark_mem), fun h => hw.noParens.2 (h ▸ hw.mark_mem)⟩
  rw [← List.append_assoc u, ← List.append_assoc s, List.append_assoc (u ++ front),
    List.append_assoc (s ++ front)] at h
  obtain ⟨hus, hvt⟩ := Closes.split_unique hparens (hu.append hplain.1) (hs.append hplain.1)
    (hnotMem hu hmark) (hnotMem hs (hw.notMem hso)) h
  exact ⟨List.append_cancel_right hus, List.append_cancel_left hvt⟩

/-- The mark of the word between two conditions is outside of parentheses. -/
lemma IsJunction.mem_outside (hw : IsJunction word mark) (hs : Closes 0 s) :
    mark ∈ outside 0 (s ++ word ++ t) := by
  rw [hw.outside_append hs]
  exact List.mem_append_right _ (List.mem_append_left _ hw.mark_mem)

/-- A joined text is not one in parentheses. -/
lemma IsJunction.ne_group (hw : IsJunction word mark) (hs : Closes 0 s) (hu : Closes 0 u) :
    '(' :: (u ++ [')']) ≠ s ++ word ++ t := by
  intro h
  exact nomatch (h ▸ hu.outside_group) ▸ hw.mem_outside (t := t) hs

/-- A text that is joined by one word is not joined by another one. -/
lemma IsJunction.ne_other (hw : IsJunction word mark) (hs : Closes 0 s) (hu : Closes 0 u)
    (hso : NoCapital (outside 0 s)) (hto : NoCapital (outside 0 t)) {word' : List Char}
    {mark' : Char} (hw' : IsJunction word' mark') (hne : mark' ∉ word) :
    u ++ word' ++ v ≠ s ++ word ++ t := by
  intro h
  have hmem := h ▸ hw'.mem_outside (t := v) hu
  rw [hw.outside_append hs] at hmem
  exact List.not_mem_append (hw'.notMem hso) (List.not_mem_append hne (hw'.notMem hto)) hmem

/-- A joined text is not one that `NOT` denies. -/
lemma IsJunction.ne_not (hw : IsJunction word mark) (hs : Closes 0 s)
    (hso : NoCapital (outside 0 s)) : "NOT ".toList ++ u ≠ s ++ word ++ t := by
  intro h
  -- the text of the denial begins with a capital letter, the joined one does not
  have hhead := congrArg (fun r => (outside 0 r).head?) h
  simp only [closes_not.outside_append, hw.outside_append hs, List.head?_append, hw.begins] at hhead
  have hnot : (outside 0 "NOT ".toList).head? = some 'N' := by decide
  rw [hnot] at hhead
  cases ho : (outside 0 s).head? with
  | none =>
    rw [ho] at hhead
    exact absurd hhead (by simp)
  | some c =>
    rw [ho] at hhead
    cases hhead
    have := hso 'N' (List.mem_of_head? ho)
    nomatch this

end Junctions

/-- A text has one meaning. -/
structure Means (names : Fields String) (values : Fields Stored) (s : List Char)
    (m : Resolved) : Prop where
  reads : Reads names values s m
  unique : ∀ m', Reads names values s m' → m' = m

section Meanings

variable {names : Fields String} {values : Fields Stored} {s t : List Char} {l r m : Resolved}

/-- A test has one meaning. -/
lemma means_of_test (h : ReadsTest names values s m) : Means names values s m := by
  refine ⟨.test h, fun m' h' => ?_⟩
  -- every word that makes a condition of others has a capital letter
  have capital : ∀ c ∈ s, c.isUpper ≠ true := fun c hc => Bool.eq_false_iff.1 (h.noCapital c hc)
  cases h' with
  | test h' => exact h'.unique h
  | group _ => exact absurd rfl h.head
  | and hl _ =>
    exact absurd isJunction_and.isUpper (capital _ (mem_of_mem_outside
      (isJunction_and.mem_outside hl.closes)))
  | or hl _ =>
    exact absurd isJunction_or.isUpper (capital _ (mem_of_mem_outside
      (isJunction_or.mem_outside hl.closes)))
  | not _ => exact absurd rfl (capital 'N' (List.mem_append_left _ (by decide)))

/-- Parentheses do not change the meaning of a text. -/
lemma Means.group (h : Means names values s m) : Means names values ('(' :: (s ++ [')'])) m := by
  refine ⟨.group h.reads, fun m' h' => ?_⟩
  -- with everything in parentheses there is no place for a word between conditions
  have hout := h.reads.closes.outside_group
  generalize hT : '(' :: (s ++ [')']) = T at h' hout
  cases h' with
  | test h' => exact absurd (congrArg List.head? hT).symm h'.head
  | group h' =>
    obtain rfl := List.append_cancel_right (List.cons.inj hT).2
    exact h.unique _ h'
  | and hl _ => exact nomatch hout ▸ isJunction_and.mem_outside hl.closes
  | or hl _ => exact nomatch hout ▸ isJunction_or.mem_outside hl.closes
  | not _ => exact absurd (congrArg List.head? hT) (by simp)

/-- A condition in parentheses has no capital letter outside of them. -/
lemma Means.noCapital_group (h : Means names values s m) :
    NoCapital (outside 0 ('(' :: (s ++ [')']))) := by
  rw [h.reads.closes.outside_group]
  exact nofun

/-- What `NOT` denies is the text in parentheses behind it. -/
lemma Means.not (h : Means names values s m) (hs : outside 0 s = []) :
    Means names values ("NOT ".toList ++ s) (.not m) := by
  refine ⟨.not h.reads, fun m' h' => ?_⟩
  -- `NOT` is all that is outside of parentheses
  have hout : outside 0 ("NOT ".toList ++ s) = "NOT ".toList := by
    rw [closes_not.outside_append, hs, List.append_nil]
    decide
  generalize hT : "NOT ".toList ++ s = T at h' hout
  cases h' with
  | test h' =>
    have := h'.noCapital 'N' (hT ▸ List.mem_append_left _ (by decide))
    nomatch this
  | group _ => exact absurd (congrArg List.head? hT) (by simp)
  | and hl _ => exact absurd (hout ▸ isJunction_and.mem_outside hl.closes) (by decide)
  | or hl _ => exact absurd (hout ▸ isJunction_or.mem_outside hl.closes) (by decide)
  | not h' =>
    obtain rfl := List.append_cancel_left hT
    rw [h.unique _ h']

/-- A text that is joined by a word is read as two parts that one of the words joins. -/
lemma IsJunction.reads {word : List Char} {mark : Char} (hw : IsJunction word mark)
    (hs : Closes 0 s) (hso : NoCapital (outside 0 s))
    (h : Reads names values (s ++ word ++ t) m) :
    ∃ u v l r, Reads names values u l ∧ Reads names values v r
      ∧ (u ++ " AND ".toList ++ v = s ++ word ++ t ∧ m = .and l r
        ∨ u ++ " OR ".toList ++ v = s ++ word ++ t ∧ m = .or l r) := by
  have hmark := mem_of_mem_outside (hw.mem_outside (t := t) hs)
  generalize hT : s ++ word ++ t = T at h hmark
  cases h with
  | test h =>
    have hcapital := h.noCapital _ hmark
    rw [hw.isUpper] at hcapital
    cases hcapital
  | group h => exact absurd hT.symm (hw.ne_group hs h.closes)
  | not _ => exact absurd hT.symm (hw.ne_not hs hso)
  | and hl hr => exact ⟨_, _, _, _, hl, hr, .inl ⟨rfl, rfl⟩⟩
  | or hl hr => exact ⟨_, _, _, _, hl, hr, .inr ⟨rfl, rfl⟩⟩

/-- Two conditions that are joined by `AND` are both meant, if capital letters stand in them in
parentheses only. -/
lemma Means.and (hl : Means names values s l) (hr : Means names values t r)
    (hso : NoCapital (outside 0 s)) (hto : NoCapital (outside 0 t)) :
    Means names values (s ++ " AND ".toList ++ t) (.and l r) := by
  have hw := isJunction_and
  have hs := hl.reads.closes
  refine ⟨.and hl.reads hr.reads, fun m' h' => ?_⟩
  obtain ⟨u, v, l', r', hl', hr', ⟨heq, rfl⟩ | ⟨heq, -⟩⟩ := hw.reads hs hso h'
  · obtain ⟨rfl, rfl⟩ := hw.split hs hl'.closes hso hto heq
    rw [hl.unique _ hl', hr.unique _ hr']
  · exact absurd heq (hw.ne_other hs hl'.closes hso hto isJunction_or (by decide))

/-- Of two conditions that are joined by `OR` one is meant, if capital letters stand in them in
parentheses only. -/
lemma Means.or (hl : Means names values s l) (hr : Means names values t r)
    (hso : NoCapital (outside 0 s)) (hto : NoCapital (outside 0 t)) :
    Means names values (s ++ " OR ".toList ++ t) (.or l r) := by
  have hw := isJunction_or
  have hs := hl.reads.closes
  refine ⟨.or hl.reads hr.reads, fun m' h' => ?_⟩
  obtain ⟨u, v, l', r', hl', hr', ⟨heq, -⟩ | ⟨heq, rfl⟩⟩ := hw.reads hs hso h'
  · exact absurd heq (hw.ne_other hs hl'.closes hso hto isJunction_and (by decide))
  · obtain ⟨rfl, rfl⟩ := hw.split hs hl'.closes hso hto heq
    rw [hl.unique _ hl', hr.unique _ hr']

end Meanings

end TableQuery.Native
