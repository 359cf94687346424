import TableQuery.Proofs.Native.Placeholders

/-!
# Placeholders in texts

Which placeholders stand in the text of a condition, and how often. They are the numbers in the
condition, in their order: nothing else in the text begins like a placeholder, and none runs on into
what follows it.
-/

namespace TableQuery.Native

/-- A placeholder. -/
inductive Placeholder where
  | name (number : Nat)
  | value (number : Nat)
  deriving DecidableEq

/-- How a placeholder is written. -/
def Placeholder.text : Placeholder → String
  | .name n => namePlaceholder n
  | .value n => valuePlaceholder n

/-- Different placeholders are written in different ways. -/
lemma Placeholder.text_injective : Placeholder.text.Injective := by
  intro x y h
  have hchars := congrArg String.toList h
  cases x with
  | name m =>
    cases y with
    | name n => exact congrArg name (Placeholders.namePlaceholder_injective h)
    | value n =>
      rw [text, text, Placeholders.toList_namePlaceholder, Placeholders.toList_valuePlaceholder]
        at hchars
      cases (List.cons.inj hchars).1
  | value m =>
    cases y with
    | name n =>
      rw [text, text, Placeholders.toList_namePlaceholder, Placeholders.toList_valuePlaceholder]
        at hchars
      cases (List.cons.inj hchars).1
    | value n => exact congrArg value (Placeholders.valuePlaceholder_injective h)

/-- The placeholder of a step, if it is a name. -/
def Step.placeholders : Step → List Placeholder
  | .name n => [.name n]
  | .index _ => []

/-- The placeholders in an operand. -/
def Operand.placeholders : Operand → List Placeholder
  | .value n => [.value n]
  | .path steps | .size steps => steps.flatMap Step.placeholders

/-- The placeholders in a condition. -/
def Condition.placeholders : Condition → List Placeholder
  | .compare _ l r => l.placeholders ++ r.placeholders
  | .and l r | .or l r => l.placeholders ++ r.placeholders
  | .not c => c.placeholders
  | .exists steps | .notExists steps => steps.flatMap Step.placeholders
  | .type steps tag => steps.flatMap Step.placeholders ++ [.value tag]

/-- A character begins a placeholder. -/
def isSign (c : Char) : Bool :=
  c == '#' || c == ':'

/-- The placeholders in a text: each sign with all letters and digits behind it. -/
def placeholdersIn : List Char → List String
  | [] => []
  | c :: rest =>
    if isSign c then String.ofList (c :: rest.takeWhile Char.isAlphanum) :: placeholdersIn rest
    else placeholdersIn rest

variable {s t : List Char}

/-- A text without signs in front of another adds nothing. -/
lemma placeholdersIn_plain (hs : s.all fun c => !isSign c) (t : List Char) :
    placeholdersIn (s ++ t) = placeholdersIn t := by
  induction s with
  | nil => rfl
  | cons c s ih =>
    rw [List.all_cons, Bool.and_eq_true, Bool.not_eq_true'] at hs
    rw [List.cons_append, placeholdersIn, hs.1, if_neg Bool.false_ne_true]
    exact ih hs.2

/-- A run of letters and digits ends where the next text begins with something else. -/
lemma takeWhile_isAlphanum_append (s : List Char) (ht : t.head?.all fun c => !c.isAlphanum) :
    (s ++ t).takeWhile Char.isAlphanum = s.takeWhile Char.isAlphanum := by
  induction s with
  | nil =>
    cases t with
    | nil => rfl
    | cons c t =>
      change (!c.isAlphanum) = true at ht
      rw [Bool.not_eq_true'] at ht
      rw [List.nil_append, List.takeWhile_cons_of_neg (Bool.eq_false_iff.1 ht)]
      rfl
  | cons c s ih => rw [List.cons_append, List.takeWhile_cons, List.takeWhile_cons, ih]

/-- The placeholders of two texts, if none can run on into the second. -/
lemma placeholdersIn_append (s : List Char) (ht : t.head?.all fun c => !c.isAlphanum) :
    placeholdersIn (s ++ t) = placeholdersIn s ++ placeholdersIn t := by
  induction s with
  | nil => rfl
  | cons c s ih =>
    rw [List.cons_append, placeholdersIn, placeholdersIn, takeWhile_isAlphanum_append s ht, ih]
    split <;> rfl

/-- A letter or digit begins no placeholder. -/
lemma isSign_of_isAlphanum {c : Char} (h : c.isAlphanum = true) : isSign c = false := by
  rw [isSign, Bool.or_eq_false_iff, beq_eq_false_iff_ne, beq_eq_false_iff_ne]
  constructor <;> rintro rfl <;> cases h

/-- No placeholder begins in letters and digits. -/
lemma plain_of_isAlphanum (hs : ∀ c ∈ s, c.isAlphanum = true) : s.all fun c => !isSign c := by
  rw [List.all_eq_true]
  intro c hc
  rw [isSign_of_isAlphanum (hs c hc)]
  rfl

/-- The digits of a number are digits. -/
lemma isAlphanum_digits (n : Nat) : ∀ c ∈ Text.digits n, c.isAlphanum = true := by
  intro c hc
  rw [Char.isAlphanum, List.all_eq_true.1 (Text.all_isDigit_digits n) c hc, Bool.or_true]

/-- A sign with letters and digits behind it is one placeholder. -/
lemma placeholdersIn_sign {c : Char} (hc : isSign c = true)
    (hs : ∀ c ∈ s, c.isAlphanum = true) : placeholdersIn (c :: s) = [String.ofList (c :: s)] := by
  have hrest := placeholdersIn_plain (plain_of_isAlphanum hs) []
  rw [List.append_nil] at hrest
  have hrun : (s ++ []).takeWhile Char.isAlphanum = s ++ [] := List.takeWhile_append_of_pos hs
  rw [List.append_nil] at hrun
  rw [placeholdersIn, if_pos hc, hrest, hrun]
  rfl

/-- The text of a placeholder has it alone. -/
lemma placeholdersIn_text (x : Placeholder) : placeholdersIn x.text.toList = [x.text] := by
  have hletter {c : Char} (hc : c.isAlphanum = true) (n : Nat) :
      ∀ d ∈ c :: Text.digits n, d.isAlphanum = true :=
    List.forall_mem_cons.2 ⟨hc, isAlphanum_digits n⟩
  cases x with
  | name n =>
    have hread := placeholdersIn_sign (c := '#') rfl (hletter (c := 'n') rfl n)
    rw [← Placeholders.toList_namePlaceholder, String.ofList_toList] at hread
    exact hread
  | value n =>
    have hread := placeholdersIn_sign (c := ':') rfl (hletter (c := 'v') rfl n)
    rw [← Placeholders.toList_valuePlaceholder, String.ofList_toList] at hread
    exact hread

/-- The text of a step has the placeholder of the step. -/
lemma placeholdersIn_step (step : Step) :
    placeholdersIn step.text.toList = step.placeholders.map Placeholder.text := by
  cases step with
  | name n =>
    rw [Step.text, String.toList_append, placeholdersIn_plain rfl]
    exact placeholdersIn_text (.name n)
  | index i =>
    have hdigits : (Text.natText i.toNat).toList.all fun c => !isSign c := by
      rw [Text.natText, String.toList_ofList]
      exact plain_of_isAlphanum (isAlphanum_digits _)
    rw [Step.text, String.toList_append, String.toList_append, List.append_assoc,
      placeholdersIn_plain rfl, placeholdersIn_plain hdigits]
    rfl

/-- The text of steps begins with a point or a bracket. -/
lemma head_steps (steps : List Step) :
    (String.join (steps.map Step.text)).toList.head?.all fun c => !c.isAlphanum := by
  cases steps with
  | nil => rfl
  | cons step steps =>
    rw [List.map_cons, String.join_cons, String.toList_append]
    cases step with
    | name n =>
      rw [Step.text, String.toList_append]
      rfl
    | index i =>
      rw [Step.text, String.toList_append, String.toList_append]
      rfl

/-- The text of steps has their placeholders in their order. -/
lemma placeholdersIn_steps (steps : List Step) :
    placeholdersIn (String.join (steps.map Step.text)).toList
      = (steps.flatMap Step.placeholders).map Placeholder.text := by
  induction steps with
  | nil => rfl
  | cons step steps ih =>
    rw [List.map_cons, String.join_cons, String.toList_append,
      placeholdersIn_append _ (head_steps steps), placeholdersIn_step, ih, List.flatMap_cons,
      List.map_append]

/-- The text of a path has the placeholders of its steps in their order. -/
lemma placeholdersIn_pathText (steps : List Step) :
    placeholdersIn (pathText steps).toList
      = (steps.flatMap Step.placeholders).map Placeholder.text := by
  cases steps with
  | nil => rfl
  | cons step steps =>
    -- the first name follows no point
    have hfirst : ∃ first : String,
        pathText (step :: steps) = first ++ String.join (steps.map Step.text)
          ∧ placeholdersIn first.toList = step.placeholders.map Placeholder.text := by
      cases step with
      | name n => exact ⟨_, rfl, placeholdersIn_text (.name n)⟩
      | index i => exact ⟨_, rfl, placeholdersIn_step (.index i)⟩
    obtain ⟨first, htext, hread⟩ := hfirst
    rw [htext, String.toList_append, placeholdersIn_append _ (head_steps steps), hread,
      placeholdersIn_steps, List.flatMap_cons, List.map_append]

/-- A text stands between others without being part of a placeholder. -/
def Separates (b : List Char) : Prop :=
  (b.head?.any fun c => !c.isAlphanum) = true ∧ (b.all fun c => !isSign c) = true

/-- The placeholders of two texts with a separating one between them are those of both. -/
lemma Separates.placeholdersIn {b : List Char} (hb : Separates b) (s t : List Char) :
    placeholdersIn (s ++ (b ++ t)) = placeholdersIn s ++ placeholdersIn t := by
  have hhead : (b ++ t).head?.all fun c => !c.isAlphanum := by
    cases b with
    | nil => cases hb.1
    | cons c b => exact hb.1
  rw [placeholdersIn_append s hhead, placeholdersIn_plain hb.2]

/-- A separating text at the end has no part in the placeholders. -/
lemma Separates.placeholdersIn_end {b : List Char} (hb : Separates b) (s : List Char) :
    Native.placeholdersIn (s ++ b) = Native.placeholdersIn s := by
  have hend := hb.placeholdersIn s []
  rw [List.append_nil] at hend
  exact hend.trans (List.append_nil _)

/-- Two texts in parentheses, or in one pair with a comma in between. -/
lemma placeholdersIn_pair {a x b y c : String} (ha : a.toList.all fun c => !isSign c)
    (hb : Separates b.toList) (hc : Separates c.toList) :
    placeholdersIn (a ++ x ++ b ++ y ++ c).toList
      = placeholdersIn x.toList ++ placeholdersIn y.toList := by
  simp only [String.toList_append, List.append_assoc]
  rw [placeholdersIn_plain ha, hb.placeholdersIn, hc.placeholdersIn_end]

/-- The placeholders of a text within signless ones are its own. -/
lemma placeholdersIn_enclosed {a x c : String} (ha : a.toList.all fun c => !isSign c)
    (hc : Separates c.toList) :
    placeholdersIn (a ++ x ++ c).toList = placeholdersIn x.toList := by
  simp only [String.toList_append, List.append_assoc]
  rw [placeholdersIn_plain ha, hc.placeholdersIn_end]

/-- The text of an operand has its placeholders in their order. -/
lemma placeholdersIn_operand (o : Operand) :
    placeholdersIn o.text.toList = o.placeholders.map Placeholder.text := by
  cases o with
  | value n => exact placeholdersIn_text (.value n)
  | path steps => exact placeholdersIn_pathText steps
  | size steps =>
    rw [Operand.placeholders, ← placeholdersIn_pathText]
    exact placeholdersIn_enclosed rfl ⟨rfl, rfl⟩

/-- The text of a comparison has the placeholders of its operands. -/
lemma placeholdersIn_comparison {op : Comparison} {l r : String} :
    placeholdersIn (l ++ " " ++ op.text ++ " " ++ r).toList
      = placeholdersIn l.toList ++ placeholdersIn r.toList := by
  have hblank : Separates " ".toList := ⟨rfl, rfl⟩
  have hop : op.text.toList.all fun c => !isSign c := by cases op <;> rfl
  simp only [String.toList_append, List.append_assoc]
  rw [hblank.placeholdersIn, placeholdersIn_plain hop, placeholdersIn_plain hblank.2]

/-- The placeholders in the text of a condition are those of the condition. -/
lemma placeholdersIn_condition (c : Condition) :
    placeholdersIn c.text.toList = c.placeholders.map Placeholder.text := by
  induction c with
  | compare op l r =>
    rw [Condition.placeholders, List.map_append, ← placeholdersIn_operand, ← placeholdersIn_operand]
    cases op with
    | beginsWith => exact placeholdersIn_pair rfl ⟨rfl, rfl⟩ ⟨rfl, rfl⟩
    | _ => exact placeholdersIn_comparison
  | and l r ihl ihr =>
    rw [Condition.placeholders, List.map_append, ← ihl, ← ihr]
    exact placeholdersIn_pair rfl ⟨rfl, rfl⟩ ⟨rfl, rfl⟩
  | or l r ihl ihr =>
    rw [Condition.placeholders, List.map_append, ← ihl, ← ihr]
    exact placeholdersIn_pair rfl ⟨rfl, rfl⟩ ⟨rfl, rfl⟩
  | not c ih =>
    rw [Condition.placeholders, ← ih]
    exact placeholdersIn_enclosed rfl ⟨rfl, rfl⟩
  | «exists» steps | notExists steps =>
    rw [Condition.placeholders, ← placeholdersIn_pathText]
    exact placeholdersIn_enclosed rfl ⟨rfl, rfl⟩
  | type steps tag =>
    rw [Condition.placeholders, List.map_append, ← placeholdersIn_pathText, List.map_singleton,
      ← placeholdersIn_text]
    exact placeholdersIn_pair rfl ⟨rfl, rfl⟩ ⟨rfl, rfl⟩

example : placeholdersIn "(size(#n10.#n2[3]) > :v2) AND (#n0 = :v0)".toList
    = ["#n10", "#n2", ":v2", "#n0", ":v0"] := by
  decide +kernel

end TableQuery.Native
