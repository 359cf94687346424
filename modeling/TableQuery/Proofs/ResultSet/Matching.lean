import TableQuery.Proofs.Builtin.Marked
import TableQuery.Proofs.ResultSet.Operations
import TableQuery.Proofs.Term.Builtins

/-!
# Marking by a term

A term is evaluated for all rows before one is marked, so that marks that are set on the way decide
nothing. Either all rows are marked that are not hidden and of which the term is true, or there is
an error, that of the first row that has one, and nothing is changed. To mark again changes nothing
if the term does not ask for marked rows.
-/

namespace TableQuery

namespace Row

/-- The row is shown, and a term is true of it. -/
def isHit (env : Environment) (t : Term) (row : Row) : Bool :=
  !row.flags.hidden && (t.holds env row.item).toOption == some true

/-- The row, marked if it is shown and a term is true of it. -/
def markIf (env : Environment) (t : Term) (row : Row) : Row :=
  { row with flags.marked := row.flags.marked || row.isHit env t }

variable {env : Environment} {t : Term} {row : Row}

/-- A shown row is marked exactly if the term is true of it. -/
lemma isHit_of_holds {b : Bool} (hshown : row.flags.hidden = false)
    (h : t.holds env row.item = .ok b) : row.isHit env t = b := by
  rw [isHit, hshown, h]
  cases b <;> rfl

/-- No hidden row is marked. -/
lemma isHit_of_hidden (h : row.flags.hidden = true) : row.isHit env t = false := by
  rw [isHit, h]
  rfl

/-- A mark does not decide whether a row is marked. -/
lemma isHit_markIf : (row.markIf env t).isHit env t = row.isHit env t :=
  rfl

/-- A row that is marked twice is marked. -/
lemma markIf_markIf : (row.markIf env t).markIf env t = row.markIf env t := by
  have hagain : (row.markIf env t).isHit env t = row.isHit env t := isHit_markIf
  rw [markIf, hagain, markIf, Bool.or_assoc, Bool.or_self]

end Row

namespace ResultSet

/-- A term is true or false of every row that is shown. -/
def Decides (env : Environment) (t : Term) (rows : List Row) : Prop :=
  ∀ row ∈ rows, row.flags.hidden = false → ∃ b, t.holds env row.item = .ok b

/-- The first of the rows that are shown and of which a term is neither true nor false, with its
error. -/
def FailsFirst (env : Environment) (t : Term) (rows : List Row) (e : QueryError) : Prop :=
  ∃ before row rest, rows = before ++ row :: rest ∧ Decides env t before
    ∧ row.flags.hidden = false ∧ t.holds env row.item = .error e

variable {env : Environment} {t : Term} {row : Row} {rows : List Row} {rs after : ResultSet}

/-- A term decides rows if it decides the first of them, unless that is hidden, and the others. -/
lemma decides_cons_iff :
    Decides env t (row :: rows)
      ↔ (row.flags.hidden = false → ∃ b, t.holds env row.item = .ok b) ∧ Decides env t rows :=
  List.forall_mem_cons

/-- Rows before a failure at which all is well only move it. -/
lemma FailsFirst.cons {e : QueryError} (h : FailsFirst env t rows e)
    (hrow : row.flags.hidden = false → ∃ b, t.holds env row.item = .ok b) :
    FailsFirst env t (row :: rows) e := by
  obtain ⟨before, failing, rest, rfl, hbefore, hfailing⟩ := h
  exact ⟨row :: before, failing, rest, rfl, decides_cons_iff.2 ⟨hrow, hbefore⟩, hfailing⟩

/-- The numbers of the rows that are shown and of which a term is true, from `index` on. -/
def hits (env : Environment) (t : Term) (index : Nat) (rows : List Row) : List Nat :=
  ((rows.zipIdx index).filter fun x => x.1.isHit env t).map Prod.snd

/-- The first row is found if it is a hit, and the others as they are without it. -/
lemma hits_cons (index : Nat) (row : Row) (rows : List Row) :
    hits env t index (row :: rows)
      = if row.isHit env t then index :: hits env t (index + 1) rows
        else hits env t (index + 1) rows := by
  rw [hits, List.zipIdx_cons, List.filter_cons]
  split <;> rfl

/-- Where the term decides all rows, those are found that it is true of. -/
lemma matchingFrom_eq_ok (h : Decides env t rows) (index : Nat) :
    matchingFrom env t index rows = .ok (hits env t index rows) := by
  induction rows generalizing index with
  | nil => rfl
  | cons row rest ih =>
    obtain ⟨hrow, hrest⟩ := decides_cons_iff.1 h
    rw [matchingFrom, ih hrest]
    cases hhidden : row.flags.hidden with
    | true =>
      rw [hits_cons, Row.isHit_of_hidden hhidden]
      rfl
    | false =>
      obtain ⟨b, hb⟩ := hrow hhidden
      have hhit : row.isHit env t = b := Row.isHit_of_holds hhidden hb
      rw [hits_cons, hhit, hb]
      cases b <;> rfl

/-- The error is that of the first row that has one. -/
lemma matchingFrom_eq_error (h : ¬ Decides env t rows) (index : Nat) :
    ∃ e, FailsFirst env t rows e ∧ matchingFrom env t index rows = .error e := by
  induction rows generalizing index with
  | nil => exact absurd nofun h
  | cons row rest ih =>
    rw [decides_cons_iff, not_and] at h
    rw [matchingFrom]
    cases hhidden : row.flags.hidden with
    | true =>
      have hrow : row.flags.hidden = false → ∃ b, t.holds env row.item = .ok b := by
        rw [hhidden]
        exact nofun
      obtain ⟨e, hfirst, he⟩ := ih (h hrow) (index + 1)
      exact ⟨e, hfirst.cons hrow, he⟩
    | false =>
      cases hholds : t.holds env row.item with
      | error e => exact ⟨e, ⟨[], row, rest, rfl, nofun, hhidden, hholds⟩, rfl⟩
      | ok b =>
        have hrow : row.flags.hidden = false → ∃ b, t.holds env row.item = .ok b :=
          fun _ => ⟨b, hholds⟩
        obtain ⟨e, hfirst, he⟩ := ih (h hrow) (index + 1)
        refine ⟨e, hfirst.cons hrow, ?_⟩
        rw [he]
        rfl

/-- As many rows are found as are hits. -/
lemma length_hits (env : Environment) (t : Term) (rows : List Row) :
    (hits env t 0 rows).length = rows.countP (Row.isHit env t) := by
  rw [hits, List.length_map, ← List.countP_eq_length_filter]
  conv_rhs => rw [← List.zipIdx_map_fst 0 rows, List.countP_map]
  rfl

/-- The number of a row tells whether it is hit. -/
lemma mem_hits_iff {i : Nat} (hrow : rows[i]? = some row) :
    i ∈ hits env t 0 rows ↔ row.isHit env t = true := by
  rw [hits, List.mem_map]
  constructor
  · rintro ⟨⟨other, j⟩, hmem, rfl⟩
    obtain ⟨hmem, hhit⟩ := List.mem_filter.1 hmem
    rw [List.mem_zipIdx_iff_getElem?] at hmem
    cases hrow.symm.trans hmem
    exact hhit
  · intro hhit
    exact ⟨(row, i), List.mem_filter.2 ⟨List.mem_zipIdx_iff_getElem?.2 hrow, hhit⟩, rfl⟩

/-- To mark rows by the numbers of those that are hit is to mark each that is hit. -/
lemma map_mark_hits (env : Environment) (t : Term) (rows : List Row) :
    (rows.zipIdx.map fun (row, i) =>
      if (hits env t 0 rows).contains i then { row with flags.marked := true } else row)
    = rows.map (Row.markIf env t) := by
  conv_rhs => rw [← List.zipIdx_map_fst 0 rows, List.map_map]
  refine List.map_congr_left fun (row, i) hmem => ?_
  have hrow : rows[i]? = some row := List.mem_zipIdx_iff_getElem?.1 hmem
  show (if (hits env t 0 rows).contains i then _ else _) = row.markIf env t
  cases hhit : row.isHit env t with
  | true =>
    rw [if_pos (List.contains_iff_mem.2 ((mem_hits_iff hrow).2 hhit)), Row.markIf, hhit,
      Bool.or_true]
  | false =>
    have hmiss : ¬ (hits env t 0 rows).contains i = true := fun h =>
      absurd ((mem_hits_iff hrow).1 (List.contains_iff_mem.1 h)) (ne_true_of_eq_false hhit)
    rw [if_neg hmiss, Row.markIf, hhit, Bool.or_false]

/-- All is well for every row that is shown: those of which the term is true are marked. -/
lemma markMatching_eq_ok (h : Decides (rs.environment env) t rs.rows) :
    rs.markMatching env t
      = .ok ({ rs with rows := rs.rows.map (Row.markIf (rs.environment env) t) },
        rs.rows.countP (Row.isHit (rs.environment env) t)) := by
  unfold markMatching matching
  rw [matchingFrom_eq_ok h]
  show Except.ok ({ rs with rows := rs.rows.zipIdx.map _ }, _) = _
  rw [map_mark_hits, length_hits]

/-- Where the term does not decide all rows, marking has the error of the first that it does not
decide. -/
lemma markMatching_eq_error (h : ¬ Decides (rs.environment env) t rs.rows) :
    ∃ e, FailsFirst (rs.environment env) t rs.rows e ∧ rs.markMatching env t = .error e := by
  obtain ⟨e, hfirst, he⟩ := matchingFrom_eq_error h 0
  refine ⟨e, hfirst, ?_⟩
  unfold markMatching matching
  rw [he]
  rfl

/-- Whether a term is true of a row does not change with the rows it does not ask for. -/
lemma isHit_rows (ht : .marked ∉ t.builtins) (seen : Option (List (Item × Bool))) :
    Row.isHit { env with rows := seen } t = Row.isHit env t := by
  funext row
  rw [Row.isHit, Row.isHit, Term.holds_rows ht]

/-- Whether a term decides rows does not change with the marks it does not ask for. -/
lemma decides_rows (ht : .marked ∉ t.builtins) (seen : Option (List (Item × Bool))) :
    Decides { env with rows := seen } t rows ↔ Decides env t rows := by
  unfold Decides
  simp only [Term.holds_rows ht]

/-- Marks do not decide whether a term is true or false of a row. -/
lemma decides_map_markIf (env' : Environment) (t' : Term) :
    Decides env t (rows.map (Row.markIf env' t')) ↔ Decides env t rows :=
  List.forall_mem_map

/-- Without marked rows in its term, marking again changes nothing. -/
lemma markMatching_again (ht : .marked ∉ t.builtins) {count : Nat}
    (h : rs.markMatching env t = .ok (after, count)) :
    after.markMatching env t = .ok (after, count) := by
  have hdecides : Decides (rs.environment env) t rs.rows := by
    by_contra hnot
    obtain ⟨e, -, he⟩ := markMatching_eq_error hnot
    cases h.symm.trans he
  rw [markMatching_eq_ok hdecides] at h
  cases h
  -- both times the term is evaluated as if there were no result set
  have hrows : ∀ rs' : ResultSet, Row.isHit (rs'.environment env) t = Row.isHit env t :=
    fun _ => isHit_rows ht _
  have hmark : ∀ rs' : ResultSet, Row.markIf (rs'.environment env) t = Row.markIf env t := by
    intro rs'
    funext row
    rw [Row.markIf, Row.markIf, hrows]
  rw [environment, decides_rows ht] at hdecides
  rw [hmark, hrows]
  have hagain : Decides env t (rs.rows.map (Row.markIf env t)) :=
    (decides_map_markIf env t).2 hdecides
  rw [markMatching_eq_ok ((decides_rows ht _).2 hagain), hmark, hrows, List.map_map,
    List.countP_map]
  have htwice : Row.markIf env t ∘ Row.markIf env t = Row.markIf env t :=
    funext fun _ => Row.markIf_markIf
  rw [htwice]
  rfl

section InPlace

/-- The set with one more row marked. -/
def markRow (rs : ResultSet) (index : Nat) : ResultSet :=
  { rs with rows := rs.rows.modify index fun row => { row with flags.marked := true } }

/-- Marking by a term that works in place: the rows that are found are marked one after the
other. -/
def markInPlace (rs : ResultSet) (env : Environment) (t : Term) :
    ResultSet × Except QueryError Nat :=
  match rs.matching (rs.environment env) t with
  | .ok hits => (hits.foldl markRow rs, .ok hits.length)
  | .error e => (rs, .error e)

/-- Rows that are marked one after the other are marked at once. -/
lemma foldl_markRow (indexes : List Nat) (rs : ResultSet) :
    indexes.foldl markRow rs
      = { rs with rows := rs.rows.zipIdx.map fun (row, i) =>
          if indexes.contains i then { row with flags.marked := true } else row } := by
  induction indexes generalizing rs with
  | nil =>
    show rs = { rs with rows := rs.rows.zipIdx.map Prod.fst }
    rw [List.zipIdx_map_fst]
  | cons index rest ih =>
    rw [List.foldl_cons, ih]
    refine congrArg (fun rows => { rs with rows }) (List.ext_getElem? fun i => ?_)
    rw [List.getElem?_map, List.getElem?_map, List.getElem?_zipIdx, List.getElem?_zipIdx, markRow,
      List.getElem?_modify]
    cases rs.rows[i]? with
    | none => rfl
    | some row =>
      simp only [Option.map_eq_map, Option.map_some, List.contains_cons, Nat.zero_add]
      by_cases hi : i = index
      · rw [if_pos hi.symm, beq_iff_eq.2 hi, Bool.true_or, if_pos rfl, ite_self]
      · rw [if_neg (Ne.symm hi), beq_false_of_ne hi, Bool.false_or]

/-- Marking in place leaves the same set, with the same answer. -/
lemma markInPlace_eq (rs : ResultSet) (env : Environment) (t : Term) :
    rs.markInPlace env t
      = (rs.perform (.markMatching env t), (rs.markMatching env t).map Prod.snd) := by
  show _ = (rs.orElse (rs.markMatching env t), _)
  unfold markInPlace markMatching
  cases rs.matching (rs.environment env) t with
  | error e => rfl
  | ok hits =>
    show (hits.foldl markRow rs, _) = _
    rw [foldl_markRow]
    rfl

end InPlace

/-- While rows are marked by a term, the term sees the rows with the marks that they had before: a
call for marked rows in it gives what those rows have, or fails at the first of them that cannot be
read. If the term is true or false of each row that is shown, those of which it is true are marked,
and the number of them is told. If not, the error is that of the first row that has one, and the set
stays as it is. To mark again changes nothing if the term does not ask for marked rows. -/
theorem markMatching_exact (rs : ResultSet) (env : Environment) (t : Term) :
    let rows := rs.rows.map fun row => (row.item, row.flags.marked)
    let seen : Environment := { env with rows := some rows }
    (Decides seen t rs.rows →
      rs.markMatching env t
        = .ok ({ rs with rows := rs.rows.map (Row.markIf seen t) },
          rs.rows.countP (Row.isHit seen t)))
    ∧ (¬ Decides seen t rs.rows →
      ∃ e, FailsFirst seen t rs.rows e ∧ rs.markMatching env t = .error e
        ∧ rs.markInPlace env t = (rs, .error e))
    ∧ rs.markInPlace env t
      = (rs.perform (.markMatching env t), (rs.markMatching env t).map Prod.snd)
    ∧ (.marked ∉ t.builtins → ∀ after count, rs.markMatching env t = .ok (after, count) →
      after.markMatching env t = .ok (after, count))
    ∧ ∀ arg name, arg.asText? = some name →
      (∀ v, Builtin.apply seen .marked [arg] = .ok v
        ↔ ∃ values, v = .list values ∧ Builtin.MarkedAre name rows values)
      ∧ ∀ e, Builtin.apply seen .marked [arg] = .error e
        ↔ ∃ i cause, e = .markedItem i name cause ∧ Builtin.MarkedFails name rows i cause := by
  intro rows seen
  have hinPlace := markInPlace_eq rs env t
  refine ⟨markMatching_eq_ok, fun hnot => ?_, hinPlace, fun ht _ _ => markMatching_again ht,
    fun arg name harg => Builtin.apply_marked harg rfl⟩
  obtain ⟨e, hfirst, he⟩ := markMatching_eq_error hnot
  refine ⟨e, hfirst, he, ?_⟩
  rw [hinPlace, perform, he]
  rfl

/-- Of the three rows with an `x` two are shown, and one of these is marked already; an attribute
alone fails at the first row. A term that counts the marked rows finds the one that was marked for
each of the three rows that are shown, so it marks all of them; with three marks it finds no row. -/
theorem markMatching_exact_hidden :
    let x : Item := [("a", .string "x")]
    let y : Item := [("a", .string "y")]
    let rs : ResultSet := {
      schema := ⟨"t", ⟨⟨"a", .string⟩, none⟩, []⟩
      rows := [⟨x, {}⟩, ⟨x, { hidden := true }⟩, ⟨y, {}⟩, ⟨x, { marked := true }⟩] }
    let seen : Environment := { rows := some [(x, false), (x, false), (y, false), (x, true)] }
    let after : ResultSet := { rs with
      rows := [⟨x, { marked := true }⟩, ⟨x, { hidden := true }⟩, ⟨y, {}⟩, ⟨x, { marked := true }⟩] }
    let all : ResultSet := { rs with
      rows := [⟨x, { marked := true }⟩, ⟨x, { hidden := true }⟩, ⟨y, { marked := true }⟩,
        ⟨x, { marked := true }⟩] }
    let t : Term := .compare .eq (.name ⟨[.key "a"]⟩) (.value (.string "x")) false
    let asking : Term :=
      .compare .eq (.call .size [.call .marked [.value (.string "a")]]) (.value (.int 1)) false
    let failing : Term := .name ⟨[.key "a"]⟩
    Decides seen t rs.rows ∧ rs.markMatching {} t = .ok (after, 2)
      ∧ rs.markInPlace {} t = (after, .ok 2)
      ∧ .marked ∉ t.builtins ∧ after.markMatching {} t = .ok (after, 2)
      ∧ ¬ Decides seen failing rs.rows
      ∧ (∃ e, rs.markInPlace {} failing = (rs, .error e))
      ∧ (Value.string "a").asText? = some "a"
      ∧ Builtin.apply seen .marked [.string "a"] = .ok (.list [.string "x"])
      ∧ Decides seen asking rs.rows ∧ rs.markMatching {} asking = .ok (all, 3)
      ∧ all.markMatching {} asking = .ok (all, 0) := by
  intro x y rs seen after all t asking failing
  have hdecides : Decides seen t rs.rows := by
    simp only [Decides, rs, List.forall_mem_cons]
    exact ⟨fun _ => ⟨true, by cbv⟩, nofun, fun _ => ⟨false, by cbv⟩, fun _ => ⟨true, by cbv⟩, nofun⟩
  have hmarked : rs.markMatching {} t = .ok (after, 2) := by
    rw [(markMatching_exact rs {} t).1 hdecides]
    cbv
  have hinPlace : rs.markInPlace {} t = (after, .ok 2) := by
    rw [(markMatching_exact rs {} t).2.2.1, perform, hmarked]
    rfl
  have ht : .marked ∉ t.builtins := by
    decide
  have hagain := (markMatching_exact rs {} t).2.2.2.1 ht after 2 hmarked
  have hfails : ¬ Decides seen failing rs.rows := by
    intro h
    obtain ⟨b, hb⟩ := h ⟨x, {}⟩ (List.mem_cons_self ..) rfl
    cases hb
  obtain ⟨e, -, -, hsame⟩ := (markMatching_exact rs {} failing).2.1 hfails
  have hasked : Builtin.apply seen .marked [.string "a"] = .ok (.list [.string "x"]) :=
    (((markMatching_exact rs {} asking).2.2.2.2 (.string "a") "a" rfl).1 _).2
      ⟨[.string "x"], rfl, .cons rfl .nil⟩
  have hone : Decides seen asking rs.rows := by
    simp only [Decides, rs, List.forall_mem_cons]
    exact ⟨fun _ => ⟨true, rfl⟩, nofun, fun _ => ⟨true, rfl⟩, fun _ => ⟨true, rfl⟩, nofun⟩
  have hall : rs.markMatching {} asking = .ok (all, 3) := by
    rw [(markMatching_exact rs {} asking).1 hone]
    rfl
  have hthree : all.markMatching {} asking = .ok (all, 0) := rfl
  exact ⟨hdecides, hmarked, hinPlace, ht, hagain, hfails, ⟨e, hsame⟩, rfl, hasked, hone, hall,
    hthree⟩

end ResultSet

end TableQuery
