import Mathlib.Data.Nat.Find
import TableQuery.Command.Run
import TableQuery.Proofs.Except

/-!
# Selecting items

A plan is tested on one item after the other until enough are selected. So an item is reached while
the items before it have less than the limit selected. If every item that is reached can be tested,
then the first of the selected items are shown, up to the limit; and if not, the error is that of
the first that cannot. A higher limit only reaches more items, and items that are not reached decide
nothing.
-/

namespace TableQuery

/-- A plan selects an item. -/
def Plan.selects (p : Plan) (env : Environment) (item : Item) : Bool :=
  (p.matches? env item).toOption == some true

/-- An item that can be tested is selected if the test is true. -/
lemma Plan.selects_eq {p : Plan} {env : Environment} {item : Item} {b : Bool}
    (h : p.matches? env item = .ok b) : p.selects env item = b := by
  rw [selects, h]
  cases b <;> rfl

namespace Command

/-- Less than `limit` of the items before the place `i` are selected. -/
def Reaches (env : Environment) (plan : Plan) (limit : Nat) (items : List Item) (i : Nat) : Prop :=
  (items.take i).countP (plan.selects env) < limit

/-- Every item that is reached can be tested. -/
def Decides (env : Environment) (plan : Plan) (limit : Nat) (items : List Item) : Prop :=
  ∀ i item, items[i]? = some item → Reaches env plan limit items i →
    ∃ b, plan.matches? env item = .ok b

/-- The item at the place `i` is the first that is reached and cannot be tested. -/
structure FailsFirst (env : Environment) (plan : Plan) (limit : Nat) (items : List Item) (i : Nat)
    (e : QueryError) : Prop where
  fails : ∃ item, items[i]? = some item ∧ plan.matches? env item = .error e
  reached : Reaches env plan limit items i
  first : ∀ j item, j < i → items[j]? = some item → Reaches env plan limit items j →
    ∃ b, plan.matches? env item = .ok b

/-- The selection that keeps what it has found: it goes on while that is less than the limit. -/
def collect (env : Environment) (plan : Plan) (limit : Nat) (found : List Item) (number : Nat) :
    List Item → Except CommandError (List Item)
  | [] => .ok found
  | item :: rest =>
    if limit ≤ found.length then .ok found
    else do
      if ← (plan.matches? env item).mapError (.untested number) then
        collect env plan limit (found ++ [item]) (number + 1) rest
      else collect env plan limit found (number + 1) rest

variable {env env' : Environment} {plan plan' : Plan} {limit most number i j : Nat}
variable {item : Item} {items rest : List Item} {b : Bool} {e : QueryError}

/-- The first item is reached unless the limit is zero. -/
lemma reaches_zero_iff : Reaches env plan limit items 0 ↔ 0 < limit :=
  Iff.rfl

/-- Behind an item that is selected one less is left to be. -/
lemma reaches_succ_iff (h : plan.matches? env item = .ok b) :
    Reaches env plan limit (item :: rest) (i + 1)
      ↔ Reaches env plan (limit - b.toNat) rest i := by
  unfold Reaches
  rw [List.take_succ_cons, List.countP_cons, Plan.selects_eq h]
  cases b
  · exact Iff.rfl
  · show _ + 1 < limit ↔ _ < limit - 1
    omega

/-- With a limit of zero no item is reached. -/
lemma not_reaches_zero : ¬ Reaches env plan 0 items i :=
  Nat.not_lt_zero _

/-- With a higher limit the same items are reached, and maybe more. -/
lemma Reaches.mono (h : Reaches env plan limit items i) (hle : limit ≤ most) :
    Reaches env plan most items i :=
  Nat.lt_of_lt_of_le h hle

/-- The items before one that is reached are reached. -/
lemma Reaches.of_le (h : Reaches env plan limit items i) (hle : j ≤ i) :
    Reaches env plan limit items j :=
  Nat.lt_of_le_of_lt (List.take_sublist_take_left hle).countP_le h

/-- Until the limit is used up the item at hand is tested. -/
lemma select_cons_of_ok (hlimit : 0 < limit) (h : plan.matches? env item = .ok b) :
    select env plan limit number (item :: rest)
      = (select env plan (limit - b.toNat) (number + 1) rest).map
        fun found => if b then item :: found else found := by
  rw [select, if_neg (Nat.ne_of_gt hlimit), h]
  cases b with
  | true =>
    show (do return item :: (← select env plan (limit - 1) (number + 1) rest))
      = (select env plan (limit - 1) (number + 1) rest).map (item :: ·)
    cases select env plan (limit - 1) (number + 1) rest <;> rfl
  | false =>
    show select env plan limit (number + 1) rest
      = (select env plan limit (number + 1) rest).map id
    cases select env plan limit (number + 1) rest <;> rfl

/-- The selection fails at an item that is reached and cannot be tested. -/
lemma select_cons_of_error (hlimit : 0 < limit) (h : plan.matches? env item = .error e) :
    select env plan limit number (item :: rest) = .error (.untested number e) := by
  rw [select, if_neg (Nat.ne_of_gt hlimit), h]
  rfl

/-- With a limit of zero nothing is selected. -/
lemma select_zero : select env plan 0 number items = .ok [] := by
  cases items <;> rfl

/-- Where all items that are reached can be tested, the first selected ones are found. -/
lemma select_of_decides (h : Decides env plan limit items) (number : Nat) :
    select env plan limit number items = .ok ((items.filter (plan.selects env)).take limit) := by
  induction items generalizing limit number with
  | nil => rw [List.filter_nil, List.take_nil, select]
  | cons item rest ih =>
    rcases Nat.eq_zero_or_pos limit with rfl | hlimit
    · rw [select_zero, List.take_zero]
    · obtain ⟨b, hb⟩ := h 0 item rfl (reaches_zero_iff.2 hlimit)
      have hrest : Decides env plan (limit - b.toNat) rest := fun i other hi hreached =>
        h (i + 1) other hi ((reaches_succ_iff hb).2 hreached)
      rw [select_cons_of_ok hlimit hb, ih hrest, List.filter_cons, Plan.selects_eq hb]
      cases b with
      | true =>
        rw [if_pos rfl, List.take_cons hlimit]
        rfl
      | false => rfl

/-- The selection has the error of the first item that is reached and cannot be tested, with its
place. -/
lemma select_of_failsFirst (h : FailsFirst env plan limit items i e) (number : Nat) :
    select env plan limit number items = .error (.untested (number + i) e) := by
  induction items generalizing limit number i with
  | nil =>
    obtain ⟨_, hitem, -⟩ := h.fails
    cases hitem
  | cons item rest ih =>
    have hlimit : 0 < limit := h.reached.of_le (Nat.zero_le i)
    cases i with
    | zero =>
      obtain ⟨_, hitem, he⟩ := h.fails
      cases hitem
      exact select_cons_of_error hlimit he
    | succ i =>
      obtain ⟨b, hb⟩ := h.first 0 item (Nat.succ_pos i) rfl (reaches_zero_iff.2 hlimit)
      have hrest : FailsFirst env plan (limit - b.toNat) rest i e := by
        refine ⟨h.fails, (reaches_succ_iff hb).1 h.reached, fun j other hj hother hreached => ?_⟩
        exact h.first (j + 1) other (Nat.succ_lt_succ hj) hother ((reaches_succ_iff hb).2 hreached)
      rw [select_cons_of_ok hlimit hb, ih hrest, Nat.add_right_comm, Nat.add_assoc]
      rfl

/-- If not every item that is reached can be tested, then there is a first that cannot. -/
lemma exists_failsFirst (h : ¬ Decides env plan limit items) :
    ∃ i e, FailsFirst env plan limit items i e := by
  classical
  have hfails : ∃ i item, items[i]? = some item ∧ Reaches env plan limit items i
      ∧ ¬ ∃ b, plan.matches? env item = .ok b := by
    by_contra hnone
    refine h fun i item hitem hreached => ?_
    by_contra hfail
    exact hnone ⟨i, item, hitem, hreached, hfail⟩
  obtain ⟨item, hitem, hreached, hfail⟩ := Nat.find_spec hfails
  cases htest : plan.matches? env item with
  | ok b => exact absurd ⟨b, htest⟩ hfail
  | error e =>
    refine ⟨Nat.find hfails, e, ⟨item, hitem, htest⟩, hreached, fun j other hj hother hreached => ?_⟩
    by_contra hnot
    exact Nat.find_min hfails hj ⟨other, hother, hreached, hnot⟩

/-- The error of a selection is that of the first item that is reached and cannot be tested. -/
lemma select_eq_error (h : ¬ Decides env plan limit items) :
    ∃ i e, FailsFirst env plan limit items i e
      ∧ select env plan limit 0 items = .error (.untested i e) := by
  obtain ⟨i, e, hfirst⟩ := exists_failsFirst h
  refine ⟨i, e, hfirst, ?_⟩
  rw [select_of_failsFirst hfirst, Nat.zero_add]

/-- What is left to be found and what is kept make up the limit. -/
lemma collect_eq (found : List Item) (number : Nat) :
    collect env plan limit found number items
      = (select env plan (limit - found.length) number items).map (found ++ ·) := by
  induction items generalizing found number with
  | nil =>
    show Except.ok found = Except.ok (found ++ [])
    rw [List.append_nil]
  | cons item rest ih =>
    by_cases hfull : limit ≤ found.length
    · rw [collect, if_pos hfull, Nat.sub_eq_zero_of_le hfull, select_zero]
      show Except.ok found = Except.ok (found ++ [])
      rw [List.append_nil]
    · have hleft : 0 < limit - found.length := Nat.sub_pos_of_lt (Nat.lt_of_not_le hfull)
      rw [collect, if_neg hfull]
      cases htest : plan.matches? env item with
      | error e =>
        rw [select_cons_of_error hleft htest]
        rfl
      | ok b =>
        rw [select_cons_of_ok hleft htest]
        cases b with
        | true =>
          show collect env plan limit (found ++ [item]) (number + 1) rest
            = ((select env plan (limit - found.length - 1) (number + 1) rest).map (item :: ·)).map _
          rw [ih, List.length_append, List.length_singleton, Nat.sub_add_eq]
          cases select env plan (limit - found.length - 1) (number + 1) rest with
          | error e => rfl
          | ok more => exact congrArg Except.ok (List.append_cons ..).symm
        | false =>
          show collect env plan limit found (number + 1) rest
            = ((select env plan (limit - found.length) (number + 1) rest).map id).map _
          rw [ih]
          cases select env plan (limit - found.length) (number + 1) rest <;> rfl

/-- Only the items that are reached are tested. -/
lemma select_congr
    (h : ∀ i item, items[i]? = some item → Reaches env plan limit items i →
      plan'.matches? env' item = plan.matches? env item) (number : Nat) :
    select env' plan' limit number items = select env plan limit number items := by
  induction items generalizing limit number with
  | nil => rfl
  | cons item rest ih =>
    rcases Nat.eq_zero_or_pos limit with rfl | hlimit
    · rw [select_zero, select_zero]
    · have hitem := h 0 item rfl (reaches_zero_iff.2 hlimit)
      cases htest : plan.matches? env item with
      | error e =>
        rw [select_cons_of_error hlimit htest, select_cons_of_error hlimit (hitem.trans htest)]
      | ok b =>
        rw [select_cons_of_ok hlimit htest, select_cons_of_ok hlimit (hitem.trans htest)]
        rw [ih fun i other hi hreached => h (i + 1) other hi ((reaches_succ_iff htest).2 hreached)]

/-- A higher limit does not come to another error first. -/
lemma FailsFirst.mono (h : FailsFirst env plan limit items i e) (hle : limit ≤ most) :
    FailsFirst env plan most items i e :=
  ⟨h.fails, h.reached.mono hle, fun j other hj hother _ =>
    h.first j other hj hother (h.reached.of_le (Nat.le_of_lt hj))⟩

/-- A higher limit selects more items behind those that were selected, or comes to an item that was
not reached. -/
lemma select_mono (h : Decides env plan limit items) (hle : limit ≤ most) :
    (∃ more, select env plan most 0 items
        = .ok ((items.filter (plan.selects env)).take limit ++ more))
      ∨ ∃ i e, ¬ Reaches env plan limit items i
        ∧ select env plan most 0 items = .error (.untested i e) := by
  by_cases hmost : Decides env plan most items
  · left
    obtain ⟨more, hmore⟩ := List.take_prefix_take_left (l := items.filter (plan.selects env)) hle
    exact ⟨more, by rw [select_of_decides hmost, hmore]⟩
  · right
    obtain ⟨i, e, hfirst, herror⟩ := select_eq_error hmost
    refine ⟨i, e, fun hreached => ?_, herror⟩
    obtain ⟨item, hitem, he⟩ := hfirst.fails
    obtain ⟨b, hb⟩ := h i item hitem hreached
    cases he.symm.trans hb

/-- What is shown of some items that are found among a number of them. -/
def shown (found : List Item) (total : Nat) : Answer :=
  .tree (.ofMembers [("Count", .number (Text.natText found.length)),
    ("Items", .ofElements (found.map Item.toJson)),
    ("ScannedCount", .number (Text.natText total))])

section Filter

variable {config : Config} {schemaPath itemsPath expression : String} {schema : TableSchema}

/-- What is answered is the selection, with the limit of the settings if none is given. -/
lemma answer_filter (hschema : readSchema env schemaPath = .ok schema)
    (hitems : readItems env itemsPath = .ok items)
    (hplan : Plan.compile env schema expression = .ok plan) (limit : Option UInt64) :
    answer env config (.filter schemaPath itemsPath limit expression)
      = (select env plan (limit.getD config.limit).toNat 0 items).map
        fun found => shown found items.length := by
  have hcompile : compile env schema expression = .ok plan := by
    rw [compile, hplan]
    rfl
  rw [answer, hschema]
  show readItems env itemsPath >>= _ = _
  rw [hitems]
  show compile env schema expression >>= _ = _
  rw [hcompile]
  show select env plan _ 0 items >>= _ = _
  cases select env plan (limit.getD config.limit).toNat 0 items <;> rfl

/-- If every item that is reached can be tested, then the answer has the first items that the plan
selects, up to the limit, with their number and that of all items. If not, the error is that of the
first item that is reached and cannot be tested. A higher limit gives more behind what was given, or
comes to an item that was not reached. Items that are not reached are not tested, and under the
limit zero none is reached. What is shown is the text of the answer. -/
theorem filter_exact (hschema : readSchema env schemaPath = .ok schema)
    (hitems : readItems env itemsPath = .ok items)
    (hplan : Plan.compile env schema expression = .ok plan) (limit : Option UInt64) :
    let filter limit := answer env config (.filter schemaPath itemsPath limit expression)
    let most (limit : Option UInt64) := (limit.getD config.limit).toNat
    let selected := (items.filter (plan.selects env)).take (most limit)
    (Decides env plan (most limit) items →
      filter limit = .ok (shown selected items.length)
        ∧ selected.length = min (most limit) (items.countP (plan.selects env)))
    ∧ (¬ Decides env plan (most limit) items →
      ∃ i e, FailsFirst env plan (most limit) items i e ∧ filter limit = .error (.untested i e))
    ∧ filter limit = (collect env plan (most limit) [] 0 items).map
        (fun found => shown found items.length)
    ∧ (∀ higher, most limit ≤ most higher →
      (∃ found more, filter limit = .ok (shown found items.length)
        ∧ filter higher = .ok (shown (found ++ more) items.length))
      ∨ (∃ found i e, filter limit = .ok (shown found items.length)
        ∧ ¬ Reaches env plan (most limit) items i ∧ filter higher = .error (.untested i e))
      ∨ ∃ e, filter limit = .error e ∧ filter higher = .error e)
    ∧ (∀ env' plan', (∀ i item, items[i]? = some item → Reaches env plan (most limit) items i →
        plan'.matches? env' item = plan.matches? env item) →
      select env' plan' (most limit) 0 items = select env plan (most limit) 0 items)
    ∧ (∀ limit, run env config (.filter schemaPath itemsPath limit expression)
      = (filter limit).map Answer.text)
    ∧ ∀ i, ¬ Reaches env plan 0 items i := by
  intro filter most selected
  have hfilter : ∀ limit, filter limit = (select env plan (most limit) 0 items).map
      fun found => shown found items.length := answer_filter hschema hitems hplan
  have hdecided : Decides env plan (most limit) items →
      filter limit = .ok (shown selected items.length) := by
    intro h
    rw [hfilter, select_of_decides h]
    rfl
  refine ⟨fun h => ⟨hdecided h, ?_⟩, fun h => ?_, ?_, fun higher hle => ?_, fun env' plan' h =>
    select_congr h 0, fun _ => rfl, fun _ => not_reaches_zero⟩
  · rw [List.length_take, List.countP_eq_length_filter]
  · obtain ⟨i, e, hfirst, herror⟩ := select_eq_error h
    refine ⟨i, e, hfirst, ?_⟩
    rw [hfilter, herror]
    rfl
  · rw [hfilter, collect_eq]
    show _ = ((select env plan (most limit) 0 items).map id).map _
    cases select env plan (most limit) 0 items <;> rfl
  · by_cases h : Decides env plan (most limit) items
    · rcases select_mono h hle with ⟨more, hmore⟩ | ⟨i, e, hnew, herror⟩
      · refine .inl ⟨selected, more, hdecided h, ?_⟩
        rw [hfilter, hmore]
        rfl
      · refine .inr (.inl ⟨selected, i, e, hdecided h, hnew, ?_⟩)
        rw [hfilter, herror]
        rfl
    · obtain ⟨i, e, hfirst, herror⟩ := select_eq_error h
      refine .inr (.inr ⟨.untested i e, ?_, ?_⟩)
      · rw [hfilter, herror]
        rfl
      · rw [hfilter, select_of_failsFirst (hfirst.mono hle), Nat.zero_add]
        rfl

/-- Two of the first three items have an `a` of one character; that of the fourth has no size, so it
is an error to go on behind them. -/
theorem filter_exact_unsized :
    let files : Files := fun path =>
      if path = "schema" then
        .ok (.bytes "\x7b\"Table\":[\"t\",[[\"a\",\"HASH\"]],[[\"a\",\"S\"]]]\x7d".toUTF8.data.toList)
      else
        .ok (.bytes ("[\x7b\"a\":\x7b\"S\":\"x\"\x7d\x7d,\x7b\x7d,\x7b\"a\":\x7b\"S\":\"y\"\x7d\x7d,"
          ++ "\x7b\"a\":\x7b\"BOOL\":true\x7d\x7d]").toUTF8.data.toList)
    let env : Environment := { files }
    let filter limit := answer env {} (.filter "schema" "items" (some limit) "size(a) = 1")
    let found := shown [[("a", .string "x")], [("a", .string "y")]] 4
    filter 2 = .ok found
      ∧ run env {} (.filter "schema" "items" (some 2) "size(a) = 1") = .ok found.text
      ∧ (∃ e, filter 3 = .error (.untested 3 e)) := by
  intro files env filter found
  let schema : TableSchema := ⟨"t", ⟨⟨"a", .string⟩, none⟩, []⟩
  let x : Item := [("a", .string "x")]
  let y : Item := [("a", .string "y")]
  let unsized : Item := [("a", .bool true)]
  have hschema : readSchema env "schema" = .ok schema := eq_ok_of_toOption (by decide +kernel)
  have hitems : readItems env "items" = .ok [x, [], y, unsized] :=
    eq_ok_of_toOption (by decide +kernel)
  obtain ⟨plan, hplan, htests⟩ := exists_of_any_toOption
    (x := Plan.compile env schema "size(a) = 1")
    (p := fun plan => (plan.matches? env x).toOption = some true
      ∧ (plan.matches? env []).toOption = some false ∧ (plan.matches? env y).toOption = some true
      ∧ (plan.matches? env unsized).toOption = none) (by decide +kernel)
  obtain ⟨hx, hnone, hy, hunsized⟩ := of_decide_eq_true htests
  have hx := eq_ok_of_toOption hx
  have hnone := eq_ok_of_toOption hnone
  have hy := eq_ok_of_toOption hy
  have hselected : plan.selects env unsized = false := by
    rw [Plan.selects, hunsized]
    rfl
  have hcount : ([x, [], y].countP (plan.selects env)) = 2 := by
    simp [Plan.selects_eq hx, Plan.selects_eq hnone, Plan.selects_eq hy]
  have hanswer : filter 2 = .ok found := by
    have hdecides : Decides env plan 2 [x, [], y, unsized] := by
      intro i item hitem hreached
      match i, hitem with
      | 0, rfl => exact ⟨true, hx⟩
      | 1, rfl => exact ⟨false, hnone⟩
      | 2, rfl => exact ⟨true, hy⟩
      | 3, rfl => exact absurd hreached (Nat.not_lt.2 (Nat.le_of_eq hcount.symm))
    have hfound : ([x, [], y, unsized].filter (plan.selects env)).take 2 = [x, y] := by
      simp [Plan.selects_eq hx, Plan.selects_eq hnone, Plan.selects_eq hy, hselected]
    show filter 2 = .ok (shown [x, y] 4)
    rw [← hfound]
    exact ((filter_exact hschema hitems hplan (some 2)).1 hdecides).1
  refine ⟨hanswer, ?_, ?_⟩
  · have hrun : run env {} (.filter "schema" "items" (some 2) "size(a) = 1")
        = (filter 2).map Answer.text :=
      (filter_exact hschema hitems hplan (some 2)).2.2.2.2.2.1 (some 2)
    rw [hrun, hanswer]
    rfl
  · have hfails : ¬ Decides env plan 3 [x, [], y, unsized] := by
      intro h
      obtain ⟨b, hb⟩ := h 3 unsized rfl (Nat.lt_of_le_of_lt (Nat.le_of_eq hcount) (by decide))
      rw [hb] at hunsized
      cases hunsized
    have hfailed : ∃ i e, FailsFirst env plan 3 [x, [], y, unsized] i e
        ∧ filter 3 = .error (.untested i e) :=
      (filter_exact hschema hitems hplan (some 3)).2.1 hfails
    obtain ⟨i, e, hfirst, herror⟩ := hfailed
    obtain ⟨item, hitem, he⟩ := hfirst.fails
    match i, hitem with
    | 0, rfl => cases hx.symm.trans he
    | 1, rfl => cases hnone.symm.trans he
    | 2, rfl => cases hy.symm.trans he
    | 3, rfl => exact ⟨e, herror⟩

end Filter

end Command

end TableQuery
