import TableQuery.Proofs.Native.Usage

/-!
# The discipline of placeholders

Names and their placeholders determine each other, whatever was asked for and whatever of it has
failed, and what was answered once holds from then on. The texts of a plan have exactly the
placeholders that it explains, and each constant once.
-/

namespace TableQuery.Native

namespace Placeholders

/-- The placeholders of the names. -/
def placeholderFields (p : Placeholders) : Fields String :=
  Fields.ofList (p.names.zipIdx.map fun (s, i) => (s, namePlaceholder i))

variable {p q : Placeholders} {name ph : String} {v : Stored}

/-- The name map sends a placeholder to a name exactly when it is the placeholder of a number the
name is listed under. -/
lemma get?_nameFields_iff : Fields.get? ph p.nameFields = some name
    ↔ ∃ n, p.names[n]? = some name ∧ namePlaceholder n = ph :=
  get?_ofList_zipIdx_eq_some_iff namePlaceholder_injective

/-- The value map sends a placeholder to a value exactly when it is the placeholder of a number the
value is listed under. -/
lemma get?_valueFields_iff : Fields.get? ph p.valueFields = some v
    ↔ ∃ n, p.values[n]? = some v ∧ valuePlaceholder n = ph :=
  get?_ofList_zipIdx_eq_some_iff valuePlaceholder_injective

/-- The inverse map lists the names in the order in which they were numbered. -/
lemma map_fst_placeholderFields (p : Placeholders) :
    (p.names.zipIdx.map fun (s, i) => (s, namePlaceholder i)).map Prod.fst = p.names := by
  rw [List.map_map]
  exact List.zipIdx_map_fst 0 p.names

/-- With no name listed twice, the inverse map sends a name to the placeholder of its own number,
and to nothing else. -/
lemma get?_placeholderFields_iff (hp : p.names.Nodup) :
    Fields.get? name p.placeholderFields = some ph
      ↔ ∃ n, p.names[n]? = some name ∧ namePlaceholder n = ph := by
  have hnodup := p.map_fst_placeholderFields.symm ▸ hp
  rw [placeholderFields, Fields.get?_ofList_eq_some_iff hnodup, List.mem_map]
  constructor
  · rintro ⟨⟨_, n⟩, hmem, ⟨⟩⟩
    exact ⟨n, List.mk_mem_zipIdx_iff_getElem?.1 hmem, rfl⟩
  · rintro ⟨n, hn, rfl⟩
    exact ⟨(name, n), List.mk_mem_zipIdx_iff_getElem?.2 hn, rfl⟩

/-- The keys of the name map are the placeholders of the numbers below the count of names. -/
lemma names_nameFields (p : Placeholders) :
    (p.nameFields.map Prod.fst).Perm ((List.range p.names.length).map namePlaceholder) :=
  names_ofList_zipIdx namePlaceholder_injective p.names

/-- The keys of the value map are the placeholders of the numbers below the count of values. -/
lemma names_valueFields (p : Placeholders) :
    (p.valueFields.map Prod.fst).Perm ((List.range p.values.length).map valuePlaceholder) :=
  names_ofList_zipIdx valuePlaceholder_injective p.values

/-- A map with one entry for each number below `n` has `n` entries. -/
lemma length_of_names_perm {α : Type} {f : Nat → String} {fields : Fields α} {n : Nat}
    (h : (fields.map Prod.fst).Perm ((List.range n).map f)) : fields.length = n := by
  have hlength := h.length_eq
  rwa [List.length_map, List.length_map, List.length_range] at hlength

/-- With no name listed twice, the inverse map has one entry for each name. -/
lemma length_placeholderFields (hp : p.names.Nodup) :
    p.placeholderFields.length = p.names.length := by
  have hnodup := p.map_fst_placeholderFields.symm ▸ hp
  rw [placeholderFields, (Fields.ofList_perm hnodup).length_eq, List.length_map, List.length_zipIdx]

/-- A name is answered with its placeholder, or with the next one, and this is then in both maps. -/
lemma maps_name (hp : p.names.Nodup) (s : String) :
    namePlaceholder (p.name s).1 = (Fields.get? s p.placeholderFields).getD
        (namePlaceholder p.placeholderFields.length)
      ∧ (p.name s).2.nameFields
        = Fields.insert (namePlaceholder (p.name s).1) s p.nameFields
      ∧ (p.name s).2.placeholderFields
        = Fields.insert s (namePlaceholder (p.name s).1) p.placeholderFields := by
  rcases p.name_cases s with ⟨n, hn, hname⟩ | ⟨hnew, hname⟩
  · have hnames := get?_nameFields_iff.2 ⟨n, hn, rfl⟩
    have hplaceholders := (get?_placeholderFields_iff hp).2 ⟨n, hn, rfl⟩
    rw [hname, hplaceholders]
    refine ⟨rfl, ?_, ?_⟩
    · exact ((Fields.ordered_ofList _).insert_eq_self hnames).symm
    · exact ((Fields.ordered_ofList _).insert_eq_self hplaceholders).symm
  · have hnone : Fields.get? s p.placeholderFields = none := by
      rw [Option.eq_none_iff_forall_ne_some]
      intro ph hph
      obtain ⟨n, hn, -⟩ := (get?_placeholderFields_iff hp).1 hph
      exact hnew (List.mem_of_getElem? hn)
    rw [hname, hnone, length_placeholderFields hp]
    refine ⟨rfl, ?_, ?_⟩
    · exact ofList_zipIdx_concat _ p.names s
    · exact ofList_zipIdx_concat _ p.names s

/-- A constant is answered with the next placeholder, and is then in its map. -/
lemma maps_value (p : Placeholders) (v : Stored) :
    valuePlaceholder (p.value v).1 = valuePlaceholder p.valueFields.length
      ∧ (p.value v).2.valueFields
        = Fields.insert (valuePlaceholder (p.value v).1) v p.valueFields := by
  rw [length_of_names_perm p.names_valueFields]
  exact ⟨rfl, ofList_zipIdx_concat _ p.values v⟩

/-- Names and placeholders determine each other, and the placeholders are numbered from zero on. A
name that has none gets the number of names that have one, and a constant the number of constants;
nothing else in the maps changes. -/
structure Disciplined (p : Placeholders) : Prop where
  inverse : ∀ name ph, Fields.get? ph p.nameFields = some name
    ↔ Fields.get? name p.placeholderFields = some ph
  names : (p.nameFields.map Prod.fst).Perm ((List.range p.nameFields.length).map namePlaceholder)
  values : (p.valueFields.map Prod.fst).Perm
    ((List.range p.valueFields.length).map valuePlaceholder)
  name : ∀ s, namePlaceholder (p.name s).1 = (Fields.get? s p.placeholderFields).getD
      (namePlaceholder p.placeholderFields.length)
    ∧ (p.name s).2.nameFields = Fields.insert (namePlaceholder (p.name s).1) s p.nameFields
    ∧ (p.name s).2.placeholderFields
      = Fields.insert s (namePlaceholder (p.name s).1) p.placeholderFields
  value : ∀ v, valuePlaceholder (p.value v).1 = valuePlaceholder p.valueFields.length
    ∧ (p.value v).2.valueFields = Fields.insert (valuePlaceholder (p.value v).1) v p.valueFields

/-- A builder with no name listed twice keeps its maps by the discipline. -/
lemma disciplined (hp : p.names.Nodup) : p.Disciplined where
  inverse name ph := by rw [get?_nameFields_iff, get?_placeholderFields_iff hp]
  names := by
    rw [length_of_names_perm p.names_nameFields]
    exact p.names_nameFields
  values := by
    rw [length_of_names_perm p.names_valueFields]
    exact p.names_valueFields
  name := maps_name hp
  value := maps_value p

/-- What has a placeholder keeps it, and the placeholder its meaning. -/
structure Kept (p q : Placeholders) : Prop where
  names : ∀ ph name, Fields.get? ph p.nameFields = some name →
    Fields.get? ph q.nameFields = some name
  values : ∀ ph v, Fields.get? ph p.valueFields = some v → Fields.get? ph q.valueFields = some v
  placeholders : ∀ name ph, Fields.get? name p.placeholderFields = some ph →
    Fields.get? name q.placeholderFields = some ph

/-- A builder that grows keeps every entry of its maps. -/
lemma Grows.kept (h : Grows p q) (hp : p.names.Nodup) : Kept p q where
  names ph name hname := by
    obtain ⟨n, hn, hph⟩ := get?_nameFields_iff.1 hname
    exact get?_nameFields_iff.2 ⟨n, getElem?_of_prefix h.le.1 hn, hph⟩
  values ph v hv := by
    obtain ⟨n, hn, hph⟩ := get?_valueFields_iff.1 hv
    exact get?_valueFields_iff.2 ⟨n, getElem?_of_prefix h.le.2 hn, hph⟩
  placeholders name ph hname := by
    obtain ⟨n, hn, hph⟩ := (get?_placeholderFields_iff hp).1 hname
    exact (get?_placeholderFields_iff (h.nodup hp)).2 ⟨n, getElem?_of_prefix h.le.1 hn, hph⟩

end Placeholders

/-- What a builder can be asked for. -/
inductive Call where
  | name (s : String)
  | value (v : Stored)
  | path (path : Path)
  | condition (t : Term)

/-- The text that is built for a call. -/
def Call.build (env : Environment) : Call → Build String
  | .name s => do return namePlaceholder (← Build.number (Placeholders.name s))
  | .value v => do return valuePlaceholder (← Build.number (Placeholders.value v))
  | .path ⟨steps⟩ => do return pathText (← Build.number (·.steps steps))
  | .condition t => do return (← Native.condition env t).text

/-- A text says what was asked for, by what placeholders stand for. -/
def Call.Answer (env : Environment) (p : Placeholders) : Call → String → Prop
  | .name s, text => Fields.get? text p.nameFields = some s
  | .value v, text => Fields.get? text p.valueFields = some v
  | .path ⟨steps⟩, text => ∃ numbered, text = pathText numbered ∧ p.pathSteps? numbered = some steps
  | .condition t, text =>
    ∃ c m, text = c.text ∧ t.storeCondition? env = some m ∧ p.condition? c = some m

/-- The text that is built for a call answers it. -/
lemma Call.yields_build (env : Environment) (call : Call) :
    Build.Yields (call.build env) fun q text => call.Answer env q text := by
  cases call with
  | name s =>
    refine (Build.yields_name s).bind fun n => Build.yields_pure fun q hn => ?_
    exact Placeholders.get?_nameFields_iff.2 ⟨n, hn, rfl⟩
  | value v =>
    refine (Build.yields_value v).bind fun n => Build.yields_pure fun q hn => ?_
    exact Placeholders.get?_valueFields_iff.2 ⟨n, hn, rfl⟩
  | path path =>
    refine (Build.yields_steps path.steps).bind fun numbered => Build.yields_pure fun q h => ?_
    exact ⟨numbered, rfl, h⟩
  | condition t =>
    refine (yields_condition t).bind fun c => Build.yields_pure ?_
    rintro q ⟨m, ht, hc⟩
    exact ⟨c, m, rfl, ht, hc⟩

/-- A call, whether it fails or not, only adds to the placeholders. -/
lemma Call.uses_build (env : Environment) (call : Call) :
    Build.Uses (call.build env) fun _ _ => True := by
  cases call with
  | name s => exact (Build.uses_name s).bind fun _ => Build.uses_pure fun _ _ => trivial
  | value v => exact (Build.uses_value v).bind fun _ => Build.uses_pure fun _ _ => trivial
  | path path =>
    exact (Build.uses_steps path.steps).bind fun _ => Build.uses_pure fun _ _ => trivial
  | condition t => exact (uses_condition t).bind fun _ => Build.uses_pure fun _ _ => trivial

/-- A builder with the calls that it has answered. -/
structure Session where
  placeholders : Placeholders := {}
  answers : List (Call × String) := []

namespace Session

/-- The session after a call: one that fails has no answer, but may have given out placeholders. -/
def perform (env : Environment) (s : Session) (call : Call) : Session :=
  match call.build env s.placeholders with
  | .ok text p => ⟨p, s.answers ++ [(call, text)]⟩
  | .error _ p => ⟨p, s.answers⟩

/-- The session of calls to a new builder. -/
def run (env : Environment) (calls : List Call) : Session :=
  calls.foldl (perform env) {}

/-- No name has two placeholders, and all that was answered holds now and later. -/
structure Sound (env : Environment) (s : Session) : Prop where
  nodup : s.placeholders.names.Nodup
  answers : ∀ call text, (call, text) ∈ s.answers → ∀ q, s.placeholders ≤ q →
    call.Answer env q text

variable {env : Environment} {s : Session}

/-- One call only adds to the placeholders of a session. -/
lemma grows_perform (env : Environment) (s : Session) (call : Call) :
    Placeholders.Grows s.placeholders (s.perform env call).placeholders := by
  unfold perform
  split
  next text p hbuild =>
    obtain ⟨_, -, hgives⟩ := (call.uses_build env).ok _ _ _ hbuild
    exact hgives.toGrows
  next e p hbuild => exact (call.uses_build env).error _ _ _ hbuild

/-- One call keeps a session sound. -/
lemma Sound.perform (h : s.Sound env) (call : Call) : (s.perform env call).Sound env where
  nodup := (grows_perform env s call).nodup h.nodup
  answers := by
    have hle := (grows_perform env s call).le
    unfold Session.perform at hle ⊢
    split at hle
    next text p hbuild =>
      intro call' text' hanswer q hq
      rcases List.mem_append.1 hanswer with hanswer | hanswer
      · exact h.answers call' text' hanswer q (Placeholders.le_trans hle hq)
      · cases List.mem_singleton.1 hanswer
        exact (call.yields_build env _ _ _ hbuild).2 q hq
    next e p hbuild =>
      exact fun call' text' hanswer q hq =>
        h.answers call' text' hanswer q (Placeholders.le_trans hle hq)

/-- A run of calls keeps a sound session sound, by induction on the calls. -/
lemma sound_foldl (h : s.Sound env) (calls : List Call) :
    (calls.foldl (Session.perform env) s).Sound env := by
  induction calls generalizing s with
  | nil => exact h
  | cons call rest ih => exact ih (h.perform call)

/-- A run of calls only adds to the placeholders of a session. -/
lemma grows_foldl (s : Session) (calls : List Call) :
    Placeholders.Grows s.placeholders (calls.foldl (Session.perform env) s).placeholders := by
  induction calls generalizing s with
  | nil => exact .refl _
  | cons call rest ih => exact (grows_perform env s call).trans (ih (s.perform env call))

/-- Every run from the empty builder ends in a sound session. -/
lemma sound_run (calls : List Call) : (run env calls).Sound env :=
  sound_foldl ⟨List.nodup_nil, fun _ _ h => absurd h List.not_mem_nil⟩ calls

/-- A run over two lists of calls continues the run over the first. -/
lemma run_append (calls more : List Call) :
    run env (calls ++ more) = more.foldl (perform env) (run env calls) :=
  List.foldl_append

/-- What holds of the calls to a builder so far: its maps are disciplined, its answers hold, and
names have been answered with the same placeholder exactly if they are the same. -/
structure Honoured (env : Environment) (s : Session) : Prop where
  disciplined : s.placeholders.Disciplined
  answers : ∀ call text, (call, text) ∈ s.answers → call.Answer env s.placeholders text
  names : ∀ name name' ph ph', (.name name, ph) ∈ s.answers → (.name name', ph') ∈ s.answers →
    (ph = ph' ↔ name = name')

/-- In a sound session every text and operand given out still means what it meant when it was given.
-/
lemma Sound.honoured (h : s.Sound env) : s.Honoured env where
  disciplined := Placeholders.disciplined h.nodup
  answers call text hanswer := h.answers call text hanswer _ (Placeholders.le_refl _)
  names name name' ph ph' hanswer hanswer' := by
    have hph : Fields.get? ph s.placeholders.nameFields = some name :=
      h.answers _ _ hanswer _ (Placeholders.le_refl _)
    have hph' : Fields.get? ph' s.placeholders.nameFields = some name' :=
      h.answers _ _ hanswer' _ (Placeholders.le_refl _)
    constructor
    · rintro rfl
      exact Option.some.inj (hph.symm.trans hph')
    · rintro rfl
      have hinverse := (Placeholders.disciplined h.nodup).inverse name
      exact Option.some.inj (((hinverse ph).1 hph).symm.trans ((hinverse ph').1 hph'))

end Session

/-- The placeholders in the texts of a query. -/
def Expression.placeholders (e : Expression) : List String :=
  (e.keyCondition.elim [] fun text => placeholdersIn text.toList)
    ++ e.filter.elim [] fun text => placeholdersIn text.toList

/-- The texts have exactly the placeholders that the maps explain, and each constant once. -/
structure Expression.UsesExactly (e : Expression) : Prop where
  explained : ∀ ph, ph ∈ e.placeholders ↔ ph ∈ e.names.map Prod.fst ∨ ph ∈ e.values.map Prod.fst
  once : ∀ ph ∈ e.values.map Prod.fst, e.placeholders.count ph = 1

section Uses

variable {p : Placeholders} {used : List Placeholder}

/-- A number occurs among the value numbers as often as its placeholder occurs among all of them. -/
lemma count_valueNumbers (used : List Placeholder) (n : Nat) :
    (valueNumbers used).count n = used.count (.value n) := by
  induction used with
  | nil => rfl
  | cons x used ih =>
    cases x with
    | name m =>
      rw [List.count_cons_of_ne Placeholder.noConfusion, ← ih]
      rfl
    | value m =>
      have hcons : valueNumbers (.value m :: used) = m :: valueNumbers used := rfl
      rw [hcons]
      by_cases hm : m = n
      · rw [hm, List.count_cons_self, List.count_cons_self, ih]
      · rw [List.count_cons_of_ne hm, List.count_cons_of_ne fun h => hm (Placeholder.value.inj h),
          ih]

/-- A plan whose text holds the placeholders given out, in order, uses exactly the entries of its
maps. -/
lemma Placeholders.Gives.usesExactly (h : Gives {} p used) {keyCondition filter : Option String}
    (hused : (p.finish keyCondition filter).placeholders = used.map Placeholder.text) :
    (p.finish keyCondition filter).UsesExactly := by
  have hname (n : Nat) : n < p.names.length ↔ .name n ∈ used := by
    rw [h.names]
    exact or_iff_right (Nat.not_lt_zero n)
  have hvalue (n : Nat) : used.count (.value n) = if n < p.values.length then 1 else 0 := by
    rw [← count_valueNumbers, ← List.count_range, ← h.values]
    rfl
  have hmem (n : Nat) : n < p.values.length ↔ .value n ∈ used := by
    rw [← List.count_pos_iff, hvalue]
    split
    next h => exact iff_of_true h Nat.one_pos
    next h => exact iff_of_false h (Nat.lt_irrefl 0)
  refine ⟨fun ph => ?_, fun ph hph => ?_⟩
  · rw [hused]
    change _ ↔ ph ∈ p.nameFields.map Prod.fst ∨ ph ∈ p.valueFields.map Prod.fst
    rw [p.names_nameFields.mem_iff, p.names_valueFields.mem_iff]
    simp only [List.mem_map, List.mem_range, hname, hmem]
    constructor
    · rintro ⟨x, hx, rfl⟩
      cases x with
      | name n => exact .inl ⟨n, hx, rfl⟩
      | value n => exact .inr ⟨n, hx, rfl⟩
    · rintro (⟨n, hn, rfl⟩ | ⟨n, hn, rfl⟩)
      · exact ⟨.name n, hn, rfl⟩
      · exact ⟨.value n, hn, rfl⟩
  · rw [hused]
    change ph ∈ p.valueFields.map Prod.fst at hph
    rw [p.names_valueFields.mem_iff, List.mem_map] at hph
    obtain ⟨n, hn, rfl⟩ := hph
    have hcount := List.count_map_of_injective used _ Placeholder.text_injective (.value n)
    rw [hvalue, if_pos (List.mem_range.1 hn)] at hcount
    exact hcount

end Uses

/-- The placeholders read in the text of a key condition are those of its parts, one part after the
other. -/
lemma placeholdersIn_textOf (cs : List Condition) :
    placeholdersIn (KeyCondition.textOf cs).toList
      = (cs.flatMap Condition.placeholders).map Placeholder.text := by
  have hand : Separates " AND ".toList := ⟨rfl, rfl⟩
  unfold KeyCondition.textOf
  induction cs with
  | nil => rfl
  | cons c cs ih =>
    cases cs with
    | nil =>
      rw [List.flatMap_singleton]
      exact placeholdersIn_condition c
    | cons d cs =>
      rw [List.map_cons, List.map_cons, String.intercalate_cons_cons, String.append_assoc,
        String.toList_append, String.toList_append, hand.placeholdersIn, placeholdersIn_condition,
        List.flatMap_cons, List.map_append, ← ih]
      rfl

/-- The query of every plan uses exactly the placeholders that it explains. -/
lemma usesExactly_ofTerm {env : Environment} {schema : TableSchema} {t : Term} {plan : Plan}
    (h : Plan.ofTerm env schema t = .ok plan) : plan.native.UsesExactly := by
  unfold Plan.ofTerm at h
  dsimp only at h
  split at h
  next =>
    obtain ⟨⟨filter, p⟩, hbuild, h⟩ := bind_eq_ok_iff.1 h
    cases h
    obtain ⟨used, rfl, hgives⟩ := (uses_condition t).of_build hbuild
    exact hgives.usesExactly (placeholdersIn_condition filter)
  next key used' _ =>
    obtain ⟨⟨⟨comparisons, condition⟩, p⟩, hbuild, h⟩ := bind_eq_ok_iff.1 h
    cases h
    obtain ⟨used, rfl, hgives⟩ := (uses_parts key _).of_build hbuild
    apply hgives.usesExactly
    rw [List.flatMap_append, List.map_append, ← placeholdersIn_textOf]
    cases condition with
    | none => rfl
    | some c =>
      rw [Option.toList_some, List.flatMap_singleton, ← placeholdersIn_condition]
      rfl

/-- Whatever a builder is asked for, its maps are disciplined and stay so, and what it has answered
holds from then on. The texts of a plan have exactly the placeholders that it explains, and each
constant once. -/
theorem placeholder_discipline (env : Environment) :
    (∀ calls, (Session.run env calls).Honoured env
      ∧ ∀ more, (Session.run env calls).placeholders.Kept
        (Session.run env (calls ++ more)).placeholders)
      ∧ ∀ schema t plan, Plan.ofTerm env schema t = .ok plan → plan.native.UsesExactly := by
  refine ⟨fun calls => ?_, fun schema t plan => usesExactly_ofTerm⟩
  have hsound : (Session.run env calls).Sound env := Session.sound_run calls
  refine ⟨hsound.honoured, fun more => ?_⟩
  rw [Session.run_append]
  exact (Session.grows_foldl _ more).kept hsound.nodup

/-- A condition fails behind a name and a constant, which keep their placeholders, and a plan needs
one name in both of its texts. -/
theorem placeholder_discipline_shared :
    let schema : TableSchema := ⟨"t", ⟨⟨"a", .string⟩, none⟩, []⟩
    let test : Term := .compare .eq (.name ⟨[.key "a"]⟩) (.value (.string "k")) true
    let size : Term := .compare .gt (.call .size [.name ⟨[.key "b", .key "a"]⟩])
      (.value (.string "c")) false
    let calls : List Call := [.name "b", .condition (.and test (.name ⟨[.key "c"]⟩)),
      .path ⟨[.key "a", .key "b"]⟩]
    let s := Session.run {} calls
    (s.answers.map Prod.snd = ["#n0", "#n1.#n0"] ∧ s.placeholders.values = [.string "k"]
      ∧ s.Honoured {})
    ∧ ∃ plan, Plan.ofTerm {} schema (.and test size) = .ok plan
      ∧ plan.native.placeholders = ["#n0", ":v0", "#n1", "#n0", ":v1"]
      ∧ plan.native.UsesExactly := by
  intro schema test size calls s
  obtain ⟨hcalls, hplans⟩ := placeholder_discipline {}
  refine ⟨⟨by decide +kernel, by decide +kernel, (hcalls calls).1⟩, ?_⟩
  have h : (Plan.ofTerm {} schema (.and test size)).toOption.any (fun plan =>
      plan.native.placeholders = ["#n0", ":v0", "#n1", "#n0", ":v1"]) = true := by
    decide +kernel
  cases hplan : Plan.ofTerm {} schema (.and test size) with
  | error e =>
    rw [hplan] at h
    cases h
  | ok plan =>
    rw [hplan] at h
    exact ⟨plan, rfl, of_decide_eq_true h, hplans schema _ plan hplan⟩

end TableQuery.Native
