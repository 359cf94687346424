import TableQuery.Native.Builder
import TableQuery.Proofs.Fields
import TableQuery.Proofs.Native.Unambiguous
import TableQuery.Proofs.Text.Digits

/-!
# Numbered conditions

A condition with numbers for its names and constants becomes one of the store when the numbers are
looked up. Its text means that condition, and nothing else, by what its placeholders stand for.
-/

namespace TableQuery.Native

namespace Placeholders

/-- The steps of a path that is written with numbers. -/
def pathSteps? (p : Placeholders) : List Step → Option (List TableQuery.Step)
  | [] => some []
  | .name n :: rest => do return .key (← p.names[n]?) :: (← p.pathSteps? rest)
  | .index i :: rest => do return .index i :: (← p.pathSteps? rest)

/-- The operand that is written with numbers. -/
def operand? (p : Placeholders) : Operand → Option ResolvedOperand
  | .value n => p.values[n]?.map .value
  | .path steps => (p.pathSteps? steps).map .path
  | .size steps => (p.pathSteps? steps).map .size

/-- The condition that is written with numbers. -/
def condition? (p : Placeholders) : Condition → Option Resolved
  | .compare op l r => do return .compare op (← p.operand? l) (← p.operand? r)
  | .and l r => do return .and (← p.condition? l) (← p.condition? r)
  | .or l r => do return .or (← p.condition? l) (← p.condition? r)
  | .not c => (p.condition? c).map .not
  | .exists steps => (p.pathSteps? steps).map .exists
  | .notExists steps => (p.pathSteps? steps).map .notExists
  | .type steps tag => do return .type (← p.pathSteps? steps) (← p.values[tag]?)

section Lookup

variable {α : Type} {f : Nat → String}

/-- The names of values that are numbered from zero on. -/
lemma names_zipIdx (xs : List α) (f : Nat → String) :
    (xs.zipIdx.map fun (x, i) => (f i, x)).map Prod.fst = (List.range xs.length).map f := by
  rw [List.map_map, List.range_eq_range', ← List.zipIdx_map_snd 0 xs, List.map_map]
  rfl

/-- Numbers that are written in different ways are different names. -/
lemma nodup_names_zipIdx (hf : f.Injective) (xs : List α) :
    ((xs.zipIdx.map fun (x, i) => (f i, x)).map Prod.fst).Nodup := by
  rw [names_zipIdx]
  exact List.nodup_range.map hf

/-- A map from numbered names has one for each number. -/
lemma names_ofList_zipIdx (hf : f.Injective) (xs : List α) :
    ((Fields.ofList (xs.zipIdx.map fun (x, i) => (f i, x))).map Prod.fst).Perm
      ((List.range xs.length).map f) := by
  rw [← names_zipIdx xs f]
  exact (Fields.ofList_perm (nodup_names_zipIdx hf xs)).map _

/-- A map from numbered names leads to what has the number. -/
lemma get?_ofList_zipIdx_eq_some_iff (hf : f.Injective) {xs : List α} {name : String} {x : α} :
    Fields.get? name (Fields.ofList (xs.zipIdx.map fun (x, i) => (f i, x))) = some x
      ↔ ∃ n, xs[n]? = some x ∧ f n = name := by
  rw [Fields.get?_ofList_eq_some_iff (nodup_names_zipIdx hf xs), List.mem_map]
  constructor
  · rintro ⟨⟨_, n⟩, hmem, ⟨⟩⟩
    exact ⟨n, List.mk_mem_zipIdx_iff_getElem?.1 hmem, rfl⟩
  · rintro ⟨n, hn, rfl⟩
    exact ⟨(x, n), List.mk_mem_zipIdx_iff_getElem?.2 hn, rfl⟩

/-- Values under names that differ from place to place are found by their places. -/
lemma get?_ofList_zipIdx (hf : f.Injective) (xs : List α) (n : Nat) :
    Fields.get? (f n) (Fields.ofList (xs.zipIdx.map fun (x, i) => (f i, x))) = xs[n]? := by
  ext x
  rw [get?_ofList_zipIdx_eq_some_iff hf]
  constructor
  · rintro ⟨m, hm, hname⟩
    rwa [← hf hname]
  · exact fun hn => ⟨n, hn, rfl⟩

/-- The fields of numbered values with one more of them. -/
lemma ofList_zipIdx_concat {β : Type} (g : α × Nat → String × β) (xs : List α) (x : α) :
    Fields.ofList ((xs ++ [x]).zipIdx.map g)
      = Fields.insert (g (x, xs.length)).1 (g (x, xs.length)).2
        (Fields.ofList (xs.zipIdx.map g)) := by
  rw [List.zipIdx_append, List.map_append, List.zipIdx_singleton, List.map_singleton,
    Nat.zero_add, Fields.ofList_concat]

/-- Different numbers have different texts. -/
lemma natText_injective : Text.natText.Injective := by
  intro i j h
  rw [← Text.digitsValue_digits i, ← Text.digitsValue_digits j, String.ofList_injective h]

/-- Different numbers have different placeholders for names. -/
lemma namePlaceholder_injective : namePlaceholder.Injective := fun _ _ h =>
  natText_injective (String.append_right_inj _ |>.1 h)

/-- Different numbers have different placeholders for values. -/
lemma valuePlaceholder_injective : valuePlaceholder.Injective := fun _ _ h =>
  natText_injective (String.append_right_inj _ |>.1 h)

/-- The placeholder of a number leads to the name with the number, if there is one. -/
lemma get?_nameFields (p : Placeholders) (n : Nat) :
    Fields.get? (namePlaceholder n) p.nameFields = p.names[n]? :=
  get?_ofList_zipIdx namePlaceholder_injective p.names n

/-- The placeholder of a number leads to the constant with the number, if there is one. -/
lemma get?_valueFields (p : Placeholders) (n : Nat) :
    Fields.get? (valuePlaceholder n) p.valueFields = p.values[n]? :=
  get?_ofList_zipIdx valuePlaceholder_injective p.values n

end Lookup

section Texts

variable {p : Placeholders}

/-- The placeholder of a name is its sign, a letter and the digits of its number. -/
lemma toList_namePlaceholder (n : Nat) :
    (namePlaceholder n).toList = '#' :: 'n' :: Text.digits n := by
  rw [namePlaceholder, String.toList_append, Text.natText, String.toList_ofList,
    String.toList_ofList]
  rfl

/-- The placeholder of a value is its sign, a letter and the digits of its number. -/
lemma toList_valuePlaceholder (n : Nat) :
    (valuePlaceholder n).toList = ':' :: 'v' :: Text.digits n := by
  rw [valuePlaceholder, String.toList_append, Text.natText, String.toList_ofList,
    String.toList_ofList]
  rfl

/-- The placeholder of a name that has a number is read as the name. -/
lemma readsName {n : Nat} {name : String} (h : p.names[n]? = some name) :
    ReadsName p.nameFields (namePlaceholder n).toList name := by
  rw [← get?_nameFields, ← String.ofList_toList (s := namePlaceholder n)] at h
  rw [toList_namePlaceholder] at h ⊢
  exact .mk (Text.all_isDigit_digits n) h

/-- The placeholder of a constant that has a number is read as the constant. -/
lemma readsValue {n : Nat} {v : Stored} (h : p.values[n]? = some v) :
    ReadsValue p.valueFields (valuePlaceholder n).toList v := by
  rw [← get?_valueFields, ← String.ofList_toList (s := valuePlaceholder n)] at h
  rw [toList_valuePlaceholder] at h ⊢
  exact .mk (Text.all_isDigit_digits n) h

/-- The text of steps behind other steps is read as these steps. -/
lemma readsSteps {steps : List Step} {path : List TableQuery.Step}
    (h : p.pathSteps? steps = some path) :
    ReadsSteps p.nameFields (String.join (steps.map Step.text)).toList path := by
  induction steps generalizing path with
  | nil =>
    cases h
    exact .nil
  | cons step steps ih =>
    rw [List.map_cons, String.join_cons, String.toList_append]
    cases step with
    | name n =>
      obtain ⟨name, hname, h⟩ := Option.bind_eq_some_iff.1 h
      obtain ⟨rest, hrest, h⟩ := Option.bind_eq_some_iff.1 h
      cases h
      rw [Step.text, String.toList_append]
      exact .name (readsName hname) (ih hrest)
    | index i =>
      obtain ⟨rest, hrest, h⟩ := Option.bind_eq_some_iff.1 h
      cases h
      have htext : (Step.index i).text.toList = '[' :: (Text.digits i.toNat ++ [']']) := by
        rw [Step.text, String.toList_append, String.toList_append, Text.natText,
          String.toList_ofList (l := Text.digits i.toNat)]
        rfl
      rw [htext, List.cons_append, List.append_assoc]
      exact .index (Text.natOfDigits?_digits _) (ih hrest)

end Texts

end Placeholders

/-- The steps of a path begin with an attribute. -/
def BeginsWithName (steps : List TableQuery.Step) : Prop :=
  ∃ name rest, steps = .key name :: rest

/-- The path of an operand begins with an attribute. -/
def ResolvedOperand.Rooted : ResolvedOperand → Prop
  | .value _ => True
  | .path steps | .size steps => BeginsWithName steps

/-- Every path of a condition begins with an attribute. -/
def Resolved.Rooted : Resolved → Prop
  | .compare _ l r => l.Rooted ∧ r.Rooted
  | .and l r | .or l r => l.Rooted ∧ r.Rooted
  | .not c => c.Rooted
  | .exists steps | .notExists steps | .type steps _ => BeginsWithName steps

namespace Placeholders

section Texts

variable {p : Placeholders}

/-- The text of a path is read as the path. -/
lemma readsPath {steps : List Step} {path : List TableQuery.Step}
    (h : p.pathSteps? steps = some path) (hroot : BeginsWithName path) :
    ReadsPath p.nameFields (pathText steps).toList path := by
  obtain ⟨name, rest, rfl⟩ := hroot
  cases steps with
  | nil => cases h
  | cons step steps =>
    cases step with
    | index i =>
      obtain ⟨_, _, h⟩ := Option.bind_eq_some_iff.1 h
      cases h
    | name n =>
      obtain ⟨_, hname, h⟩ := Option.bind_eq_some_iff.1 h
      obtain ⟨_, hrest, h⟩ := Option.bind_eq_some_iff.1 h
      cases h
      rw [pathText, String.toList_append]
      exact .mk (readsName hname) (readsSteps hrest)

/-- The text of an operand is read as the operand. -/
lemma readsOperand {o : Operand} {r : ResolvedOperand} (h : p.operand? o = some r)
    (hroot : r.Rooted) : ReadsOperand p.nameFields p.valueFields o.text.toList r := by
  cases o with
  | value n =>
    obtain ⟨v, hv, rfl⟩ := Option.map_eq_some_iff.1 h
    exact .value (readsValue hv)
  | path steps =>
    obtain ⟨path, hpath, rfl⟩ := Option.map_eq_some_iff.1 h
    exact .path (readsPath hpath hroot)
  | size steps =>
    obtain ⟨path, hpath, rfl⟩ := Option.map_eq_some_iff.1 h
    rw [Operand.text, String.toList_append, String.toList_append]
    exact .size (readsPath hpath hroot)

/-- A comparison is written with its operator between its operands, `^=` as a function. -/
lemma readsTest_compare {op : Comparison} {l r : Operand} {left right : ResolvedOperand}
    (hl : ReadsOperand p.nameFields p.valueFields l.text.toList left)
    (hr : ReadsOperand p.nameFields p.valueFields r.text.toList right) :
    ReadsTest p.nameFields p.valueFields (Condition.compare op l r).text.toList
      (.compare op left right) := by
  by_cases hop : op = .beginsWith
  · subst hop
    have htext : (Condition.compare .beginsWith l r).text.toList
        = call "begins_with" (pair l.text.toList r.text.toList) := by
      change ("begins_with(" ++ l.text ++ ", " ++ r.text ++ ")").toList = _
      simp [call, pair]
    rw [htext]
    exact .beginsWith hl hr
  · have htext : (Condition.compare op l r).text = l.text ++ " " ++ op.text ++ " " ++ r.text := by
      cases op with
      | beginsWith => exact absurd rfl hop
      | _ => rfl
    have hlist : (Condition.compare op l r).text.toList
        = l.text.toList ++ ' ' :: (op.text.toList ++ ' ' :: r.text.toList) := by
      rw [htext]
      simp
    rw [hlist]
    exact .compare hop hl hr

/-- The text of a condition means what the condition does. -/
lemma means_text {c : Condition} {m : Resolved} (h : p.condition? c = some m) (hroot : m.Rooted) :
    Means p.nameFields p.valueFields c.text.toList m := by
  -- every operand of a connective is written in parentheses, so that it is a group with one meaning
  induction c generalizing m with
  | compare op l r =>
    obtain ⟨left, hl, h⟩ := Option.bind_eq_some_iff.1 h
    obtain ⟨right, hr, h⟩ := Option.bind_eq_some_iff.1 h
    cases h
    exact means_of_test (readsTest_compare (readsOperand hl hroot.1) (readsOperand hr hroot.2))
  | and l r ihl ihr =>
    obtain ⟨left, hl, h⟩ := Option.bind_eq_some_iff.1 h
    obtain ⟨right, hr, h⟩ := Option.bind_eq_some_iff.1 h
    cases h
    have hleft := ihl hl hroot.1
    have hright := ihr hr hroot.2
    have htext : (Condition.and l r).text.toList = '(' :: (l.text.toList ++ [')'])
        ++ " AND ".toList ++ '(' :: (r.text.toList ++ [')']) := by
      change ("(" ++ l.text ++ ") AND (" ++ r.text ++ ")").toList = _
      simp
    rw [htext]
    exact hleft.group.and hright.group hleft.noCapital_group hright.noCapital_group
  | or l r ihl ihr =>
    obtain ⟨left, hl, h⟩ := Option.bind_eq_some_iff.1 h
    obtain ⟨right, hr, h⟩ := Option.bind_eq_some_iff.1 h
    cases h
    have hleft := ihl hl hroot.1
    have hright := ihr hr hroot.2
    have htext : (Condition.or l r).text.toList = '(' :: (l.text.toList ++ [')'])
        ++ " OR ".toList ++ '(' :: (r.text.toList ++ [')']) := by
      change ("(" ++ l.text ++ ") OR (" ++ r.text ++ ")").toList = _
      simp
    rw [htext]
    exact hleft.group.or hright.group hleft.noCapital_group hright.noCapital_group
  | not c ih =>
    obtain ⟨inner, hc, rfl⟩ := Option.map_eq_some_iff.1 h
    have hinner := ih hc hroot
    have htext : (Condition.not c).text.toList
        = "NOT ".toList ++ '(' :: (c.text.toList ++ [')']) := by
      change ("NOT (" ++ c.text ++ ")").toList = _
      simp
    rw [htext]
    exact hinner.group.not hinner.reads.closes.outside_group
  | «exists» steps =>
    obtain ⟨path, hpath, rfl⟩ := Option.map_eq_some_iff.1 h
    have htext : (Condition.exists steps).text.toList
        = call "attribute_exists" (pathText steps).toList := by
      change ("attribute_exists(" ++ pathText steps ++ ")").toList = _
      simp [call]
    rw [htext]
    exact means_of_test (.exists (readsPath hpath hroot))
  | notExists steps =>
    obtain ⟨path, hpath, rfl⟩ := Option.map_eq_some_iff.1 h
    have htext : (Condition.notExists steps).text.toList
        = call "attribute_not_exists" (pathText steps).toList := by
      change ("attribute_not_exists(" ++ pathText steps ++ ")").toList = _
      simp [call]
    rw [htext]
    exact means_of_test (.notExists (readsPath hpath hroot))
  | type steps tag =>
    obtain ⟨path, hpath, h⟩ := Option.bind_eq_some_iff.1 h
    obtain ⟨v, hv, h⟩ := Option.bind_eq_some_iff.1 h
    cases h
    have htext : (Condition.type steps tag).text.toList
        = call "attribute_type" (pair (pathText steps).toList (valuePlaceholder tag).toList) := by
      change ("attribute_type(" ++ pathText steps ++ ", " ++ valuePlaceholder tag ++ ")").toList = _
      simp [call, pair]
    rw [htext]
    exact means_of_test (.type (readsPath hpath hroot) (readsValue hv))

end Texts

end Placeholders

end TableQuery.Native
