import TableQuery.Proofs.Builtin.Range
import TableQuery.Proofs.Except

/-!
# Windows of a column

The records below the header of a file read as rows, or are malformed. One call gives the cells of a
column in the 100 rows from its start on. It fails if a row before the end of these is malformed. So
the windows that follow each other are the whole column.
-/

namespace TableQuery

namespace Csv

/-- What the records below the header read as. -/
def readings (records : List Record) : List (Except Error (List String)) :=
  match records with
  | [] => []
  | first :: rest => (rest.zipIdx 1).map fun (r, number) => r.row number first.cells.length

variable {records : List Record} {names row : List String}

/-- Only the first records are read for the first rows. -/
lemma rowsFrom_take (width number count : Nat) (rs : List Record) :
    rowsFrom width number (rs.take count)
      = (((rs.zipIdx number).map fun (r, number) => r.row number width).take count).mapM id := by
  induction rs generalizing number count with
  | nil =>
    rw [List.take_nil, List.zipIdx_nil, List.map_nil, List.take_nil]
    rfl
  | cons r rs ih =>
    cases count with
    | zero => rfl
    | succ count =>
      rw [List.take_succ_cons, rowsFrom, ih, List.zipIdx_cons, List.map_cons, List.take_succ_cons,
        List.mapM_cons]
      rfl

/-- The first rows are the first records below the header, if none of them is malformed. -/
lemma rows_eq (records : List Record) (count : Nat) :
    rows records count = ((readings records).take count).mapM id := by
  cases records with
  | nil =>
    show Except.ok [] = (List.take count []).mapM id
    rw [List.take_nil]
    rfl
  | cons first rest => exact rowsFrom_take ..

/-- A record has as many cells as it has texts. -/
lemma length_of_textsFrom {number : Nat} {start : Position} {cell : Nat} {cells : List (List UInt8)}
    (h : textsFrom number start cell cells = .ok row) : row.length = cells.length := by
  induction cells generalizing cell row with
  | nil =>
    cases h
    rfl
  | cons bytes rest ih =>
    rw [textsFrom] at h
    cases htext : Text.Utf8.decode bytes with
    | error offset =>
      rw [htext] at h
      cases h
    | ok text =>
      rw [htext] at h
      obtain ⟨more, hmore, h⟩ := bind_eq_ok_iff.1 h
      cases h
      rw [List.length_cons, List.length_cons, ih hmore]

/-- A record that is not malformed has as many cells as the header. -/
lemma length_of_mem_readings (hheader : header records = .ok names)
    (h : .ok row ∈ readings records) : row.length = names.length := by
  cases records with
  | nil => cases h
  | cons first rest =>
    obtain ⟨⟨r, number⟩, -, hrow⟩ := List.mem_map.1 h
    have hwidth : names.length = first.cells.length := length_of_textsFrom hheader
    dsimp only at hrow
    rw [Record.row] at hrow
    split at hrow
    next hlength => rw [length_of_textsFrom hrow, hlength, hwidth]
    next => cases hrow

end Csv

namespace Builtin

/-- What a record below the header reads as. -/
abbrev Reading := Except Csv.Error (List String)

/-- The first column of a name. -/
def IsColumn (names : List String) (name : String) (column : Nat) : Prop :=
  names[column]? = some name ∧ ∀ j < column, names[j]? ≠ some name

/-- The cells of a column in the rows from `start` to before `stop`. -/
structure IsWindow (rows : List Reading) (column start stop : Nat) (cells : List String) :
    Prop where
  length : cells.length = stop - start
  row : ∀ j cell, cells[j]? = some cell →
    ∃ row, rows[start + j]? = some (.ok row) ∧ row[column]? = some cell

/-- The row from which a call gives cells: a number cut off at its point, or the first row if the
number is below that or not given. -/
inductive Starts : List Value → Nat → Prop
  | omitted : Starts [] 0
  | given {start : Value} {x : ℚ} (hx : start.Denotes x) (hfits : FitsInt64 (truncated x)) :
    Starts [start] (truncated x).toNat

/-- The rows behind the first `count`, which are only looked at for errors. -/
def skipRows : Nat → List Reading → Except Csv.Error (List Reading)
  | count + 1, row :: rest => do
    let _ ← row
    skipRows count rest
  | _, rows => .ok rows

/-- The cells of a column in the first `count` rows. -/
def takeCells (column : Nat) : Nat → List Reading → Except Csv.Error (List String)
  | count + 1, row :: rest => do
    let row ← row
    let more ← takeCells column count rest
    return row.getD column "" :: more
  | _, _ => .ok []

/-- The cells of a column in a window of rows, read one row after another. -/
def readWindow (column start : Nat) (rows : List Reading) : Except Csv.Error (List String) := do
  takeCells column csvWindow (← skipRows start rows)

/-- The list of the cells that a reader finds, or its error. -/
def listed (read : Except Csv.Error (List String)) : Except QueryError Value :=
  (read.mapError .csv).map fun cells => .list (cells.map .string)

variable {env : Environment} {files : Files} {path name : Value} {p s : String} {k column : Nat}
  {content : List UInt8} {names : List String} {rows : List Reading} {rs : List (List String)}

/-- A name that is in the header has a first column, and that is the one that is found. -/
lemma exists_isColumn (h : s ∈ names) : ∃ column, IsColumn names s column
    ∧ names.findIdx? (· == s) = some column := by
  cases hcolumn : names.findIdx? (· == s) with
  | none =>
    have hne := List.findIdx?_eq_none_iff.1 hcolumn s h
    exact absurd (beq_self_eq_true s) (Bool.eq_false_iff.1 hne)
  | some column =>
    obtain ⟨hlt, hname, hfirst⟩ := List.findIdx?_eq_some_iff_getElem.1 hcolumn
    refine ⟨column, ⟨?_, fun j hj => ?_⟩, rfl⟩
    · rw [List.getElem?_eq_getElem hlt, eq_of_beq hname]
    · rw [List.getElem?_eq_getElem (hj.trans hlt), ne_eq, Option.some_inj]
      intro hs
      exact hfirst j hj (beq_iff_eq.2 hs)

/-- The cells of the first rows are taken from the rows read at once. -/
lemma takeCells_eq (column count : Nat) (rows : List Reading) :
    takeCells column count rows
      = ((rows.take count).mapM id).map fun read => read.map fun row => row.getD column "" := by
  induction rows generalizing count with
  | nil =>
    rw [List.take_nil]
    cases count <;> rfl
  | cons row rest ih =>
    cases count with
    | zero => rfl
    | succ count =>
      rw [takeCells, ih, List.take_succ_cons, List.mapM_cons]
      cases row with
      | error e => rfl
      | ok row => cases (rest.take count).mapM id <;> rfl

/-- Reading row after row is reading all rows to the end of the window at once. -/
lemma readWindow_eq (column start : Nat) (rows : List Reading) :
    readWindow column start rows = ((rows.take (start + csvWindow)).mapM id).map fun read =>
      (read.drop start).map fun row => row.getD column "" := by
  induction rows generalizing start with
  | nil =>
    rw [List.take_nil]
    cases start <;> rfl
  | cons row rest ih =>
    cases start with
    | zero =>
      rw [Nat.zero_add]
      exact takeCells_eq column csvWindow (row :: rest)
    | succ start =>
      rw [Nat.add_right_comm, List.take_succ_cons, List.mapM_cons]
      cases row with
      | error e => rfl
      | ok row =>
        show readWindow column start rest = _
        rw [ih]
        cases (rest.take (start + csvWindow)).mapM id <;> rfl

section Arguments

variable {start : Value} {x : ℚ} {d : Decimal} (hpath : path.asText? = some p)
  (hname : name.string? = some s)

include hpath hname

/-- A call with a number gives the cells from the row where the number is cut off. -/
lemma apply_csv_from (hd : start.decimal? = some d) : apply env .csv [path, name, start]
    = truncate .csv d >>= fun n => columnOfFile env.files p s n.toInt.toNat := by
  show run env .csv [path, name, start] = _
  rw [run, textArg, stringArg, hpath, hname]
  show (numberArg .csv 2 start >>= fun d => truncate .csv d >>= fun n =>
    columnOfFile env.files p s n.toInt.toNat) = _
  rw [numberArg, hd]
  rfl

/-- A call gives the cells of its column from the row that its arguments say. -/
lemma apply_csv_of_starts {start : List Value} (hstart : Starts start k) :
    apply env .csv (path :: name :: start) = columnOfFile env.files p s k := by
  cases hstart with
  | omitted =>
    show run env .csv [path, name] = _
    rw [run, textArg, stringArg, hpath, hname]
    rfl
  | given hx hfits =>
    obtain ⟨d, hd, rfl⟩ := Value.denotes_iff.1 hx
    obtain ⟨l, hl, hinteger⟩ := exists_truncate (f := .csv) hfits
    rw [apply_csv_from hpath hname hd, hl, ← hinteger]
    rfl

/-- A call fails before the file is opened if its number does not fit. -/
lemma apply_csv_of_not_fits (hx : start.Denotes x) (hfits : ¬ FitsInt64 (truncated x)) :
    apply env .csv [path, name, start] = .error (.unsupported (.outOfRange .csv)) := by
  obtain ⟨d, hd, rfl⟩ := Value.denotes_iff.1 hx
  rw [apply_csv_from hpath hname hd, truncate_of_not_fits hfits]
  rfl

end Arguments

/-- The error of a reader is not that of a missing column. -/
lemma listed_ne_noColumn {read : Except Csv.Error (List String)} :
    listed read ≠ .error (.noColumn s) := by
  cases read <;> nofun

/-- The list of the cells fails exactly if the reader does. -/
lemma listed_eq_error_iff {read : Except Csv.Error (List String)} :
    (∃ e, listed read = .error (.csv e)) ↔ ∃ e, read = .error e := by
  cases read with
  | error e => exact iff_of_true ⟨e, rfl⟩ ⟨e, rfl⟩
  | ok cells => exact iff_of_false nofun nofun

section Content

variable (hfile : files p = .ok (.bytes content))
  (hheader : Csv.header (Csv.records content) = .ok names)

include hfile in
/-- The column of a file is that of its records. -/
lemma columnOfFile_of_bytes : columnOfFile files p s k
    = (Builtin.column (Csv.records content) s k).map fun cells => .list (cells.map .string) := by
  rw [columnOfFile, csvRecords, hfile]
  show Builtin.column (Csv.records content) s k
    >>= (fun cells => .ok (Value.list (cells.map Value.string))) = _
  cases Builtin.column (Csv.records content) s k <;> rfl

include hfile hheader

/-- A name that is not in the header is no column. -/
lemma columnOfFile_of_not_mem (h : s ∉ names) :
    columnOfFile files p s k = .error (.noColumn s) := by
  have hcolumn : names.findIdx? (· == s) = none := by
    rw [List.findIdx?_eq_none_iff]
    intro other hother
    exact beq_false_of_ne (ne_of_mem_of_not_mem hother h)
  rw [columnOfFile_of_bytes hfile, Builtin.column, hheader]
  simp only [Except.mapError, bind, Except.bind, hcolumn]
  rfl

/-- In a file that has the column, its window is read. -/
lemma columnOfFile_of_mem (h : s ∈ names) : ∃ column, IsColumn names s column
    ∧ ∀ k, columnOfFile files p s k
      = listed (readWindow column k (Csv.readings (Csv.records content))) := by
  obtain ⟨column, hfirst, hcolumn⟩ := exists_isColumn h
  refine ⟨column, hfirst, fun k => ?_⟩
  rw [columnOfFile_of_bytes hfile, Builtin.column, hheader, readWindow_eq, Csv.rows_eq]
  simp only [Except.mapError, bind, Except.bind, hcolumn]
  cases ((Csv.readings (Csv.records content)).take (k + csvWindow)).mapM id <;> rfl

/-- A column is missing exactly if its name is not in the header. -/
lemma columnOfFile_eq_noColumn_iff :
    columnOfFile files p s k = .error (.noColumn s) ↔ s ∉ names := by
  refine ⟨fun h hmem => ?_, columnOfFile_of_not_mem hfile hheader⟩
  obtain ⟨column, -, hread⟩ := columnOfFile_of_mem hfile hheader hmem
  rw [hread] at h
  exact listed_ne_noColumn h

end Content

/-- Where no row is malformed, the rows can all be read. -/
lemma exists_take_eq_map_ok {count : Nat} (h : ∀ i e, i < count → rows[i]? ≠ some (.error e)) :
    ∃ rs : List (List String), rows.take count = rs.map .ok := by
  apply exists_eq_map_ok_iff.2
  intro reading hreading
  obtain ⟨i, hi⟩ := List.mem_iff_getElem?.1 hreading
  rw [List.getElem?_take] at hi
  split at hi
  next hlt =>
    cases reading with
    | error e => exact absurd hi (h i e hlt)
    | ok row => exact ⟨row, rfl⟩
  next => cases hi

/-- Where the rows to the end of a window can be read, their cells are those from its start on. -/
lemma readWindow_of_take (h : rows.take (k + csvWindow) = rs.map .ok) :
    readWindow column k rows = .ok ((rs.drop k).map fun row => row.getD column "") := by
  rw [readWindow_eq, mapM_id_eq_ok_iff.2 h]
  rfl

/-- A window cannot be read exactly if a row before its end is malformed. -/
lemma readWindow_eq_error_iff : (∃ e, readWindow column k rows = .error e)
    ↔ ∃ i e, i < k + csvWindow ∧ rows[i]? = some (.error e) := by
  constructor
  · rintro ⟨e, he⟩
    by_contra hnone
    obtain ⟨rs, hrs⟩ := exists_take_eq_map_ok fun i e hlt hi => hnone ⟨i, e, hlt, hi⟩
    rw [readWindow_of_take hrs] at he
    cases he
  · rintro ⟨i, e, hlt, hi⟩
    rw [readWindow_eq]
    cases htake : (rows.take (k + csvWindow)).mapM id with
    | error e => exact ⟨e, rfl⟩
    | ok rs =>
      rw [← List.getElem?_take_of_lt hlt, mapM_id_eq_ok_iff.1 htake, List.getElem?_map] at hi
      obtain ⟨_, -, he⟩ := Option.map_eq_some_iff.1 hi
      cases he

/-- Where no row is malformed, the cells of a column are a window. -/
lemma isWindow_of_take {count : Nat} (htake : rows.take count = rs.map .ok)
    (hwidth : ∀ row, .ok row ∈ rows → column < row.length) (start : Nat) :
    IsWindow rows column start (min count rows.length)
      ((rs.drop start).map fun row => row.getD column "") := by
  have hcount : rs.length = min count rows.length := by
    rw [← List.length_take, htake, List.length_map]
  refine ⟨by rw [List.length_map, List.length_drop, hcount], fun j cell hcell => ?_⟩
  rw [List.getElem?_map, List.getElem?_drop] at hcell
  obtain ⟨row, hrow, rfl⟩ := Option.map_eq_some_iff.1 hcell
  have hread : rows[start + j]? = some (.ok row) := by
    obtain ⟨hlt, -⟩ := List.getElem?_eq_some_iff.1 hrow
    rw [← List.getElem?_take_of_lt (Nat.lt_of_lt_of_le hlt (hcount.trans_le (Nat.min_le_left ..))),
      htake, List.getElem?_map, hrow]
    rfl
  have hlt := hwidth row (List.mem_of_getElem? hread)
  refine ⟨row, hread, ?_⟩
  rw [List.getD_eq_getElem?_getD, List.getElem?_eq_getElem hlt]
  rfl

/-- Where no row to its end is malformed, a window is read. -/
lemma exists_isWindow (hwidth : ∀ row, .ok row ∈ rows → column < row.length)
    (h : ∀ i e, i < k + csvWindow → rows[i]? ≠ some (.error e)) :
    ∃ cells, readWindow column k rows = .ok cells
      ∧ IsWindow rows column k (min (k + csvWindow) rows.length) cells := by
  obtain ⟨rs, hrs⟩ := exists_take_eq_map_ok h
  exact ⟨_, readWindow_of_take hrs, isWindow_of_take hrs hwidth k⟩

/-- Windows that follow each other are together the beginning of a list. -/
lemma flatMap_windows {α : Type} (l : List α) (size count : Nat) :
    ((List.range count).flatMap fun i => (l.drop (size * i)).take size)
      = l.take (size * count) := by
  induction count with
  | zero => rfl
  | succ count ih =>
    rw [List.range_succ, List.flatMap_append, ih, List.flatMap_singleton, ← List.take_add,
      Nat.mul_succ]

/-- If no row is malformed, then the windows that follow each other are the whole column. -/
lemma exists_windows (hwidth : ∀ row, .ok row ∈ rows → column < row.length)
    (hrows : ∀ reading ∈ rows, ∃ row, reading = .ok row) :
    ∃ whole, ∃ window : Nat → List String, IsWindow rows column 0 rows.length whole
      ∧ (∀ i, readWindow column (csvWindow * i) rows = .ok (window i))
      ∧ ∀ count, rows.length ≤ csvWindow * count →
        (List.range count).flatMap window = whole := by
  obtain ⟨rs, rfl⟩ := exists_eq_map_ok_iff.2 hrows
  have hwhole := isWindow_of_take List.take_length hwidth 0
  rw [Nat.min_self, List.drop_zero] at hwhole
  refine ⟨_, fun i => ((rs.map fun row => row.getD column "").drop (csvWindow * i)).take csvWindow,
    hwhole, fun i => ?_, fun count hcount => ?_⟩
  · have htake : (rs.map .ok : List Reading).take (csvWindow * i + csvWindow)
        = (rs.take (csvWindow * i + csvWindow)).map .ok := List.map_take.symm
    rw [readWindow_of_take htake, List.drop_take, Nat.add_sub_cancel_left, List.map_take,
      List.map_drop]
  · rw [flatMap_windows, List.take_of_length_le]
    rwa [List.length_map] at hcount ⊢

/-- A call fails if its start does not fit, whatever the files are. Otherwise it fails if the header
does not have the name, or if a row before the end of the window is malformed. If not, it gives the
cells of the first column of the name in the window, as a reader finds them row after row. So the
windows of a file without malformed rows are the whole column. -/
theorem csv_exact (hpath : path.asText? = some p) (hname : name.string? = some s) :
    (∀ env start x, start.Denotes x → ¬ FitsInt64 (truncated x) →
      apply env .csv [path, name, start] = .error (.unsupported (.outOfRange .csv)))
    ∧ ∀ env content names, env.files p = .ok (.bytes content) →
      Csv.header (Csv.records content) = .ok names →
      let csv (start : List Value) := apply env .csv (path :: name :: start)
      let rows := Csv.readings (Csv.records content)
      (∀ start k, Starts start k → (csv start = .error (.noColumn s) ↔ s ∉ names))
      ∧ (s ∈ names → ∃ column, IsColumn names s column
        ∧ (∀ start k, Starts start k →
          ((∃ e, csv start = .error (.csv e)) ↔ ∃ i e, i < k + 100 ∧ rows[i]? = some (.error e))
          ∧ ((∀ i e, i < k + 100 → rows[i]? ≠ some (.error e)) →
            ∃ cells, csv start = .ok (.list (cells.map .string))
              ∧ IsWindow rows column k (min (k + 100) rows.length) cells)
          ∧ csv start = listed (readWindow column k rows))
        ∧ ((∀ reading ∈ rows, ∃ row, reading = .ok row) →
          ∃ whole, ∃ window : Nat → List String, IsWindow rows column 0 rows.length whole
            ∧ (∀ (i : Nat) (start : Value), start.Denotes (100 * i : ℕ) →
              FitsInt64 (100 * i : ℕ) → csv [start] = .ok (.list ((window i).map .string)))
            ∧ ∀ count, rows.length ≤ 100 * count →
              (List.range count).flatMap window = whole)) := by
  refine ⟨fun env start x hx hfits => apply_csv_of_not_fits hpath hname hx hfits,
    fun env content names hfile hheader => ?_⟩
  intro csv rows
  have hcsv : ∀ start k, Starts start k → csv start = columnOfFile env.files p s k :=
    fun _ _ => apply_csv_of_starts hpath hname
  refine ⟨fun start k hstart => ?_, fun hmem => ?_⟩
  · rw [hcsv start k hstart]
    exact columnOfFile_eq_noColumn_iff hfile hheader
  obtain ⟨column, hfirst, hread⟩ := columnOfFile_of_mem hfile hheader hmem
  have hwidth : ∀ row, .ok row ∈ rows → column < row.length := by
    intro row hrow
    obtain ⟨hlt, -⟩ := List.getElem?_eq_some_iff.1 hfirst.1
    rwa [Csv.length_of_mem_readings hheader hrow]
  refine ⟨column, hfirst, fun start k hstart => ?_, fun hrows => ?_⟩
  · rw [hcsv start k hstart, hread]
    refine ⟨listed_eq_error_iff.trans readWindow_eq_error_iff, fun hnone => ?_, rfl⟩
    obtain ⟨cells, hcells, hwindow⟩ := exists_isWindow hwidth hnone
    refine ⟨cells, ?_, hwindow⟩
    rw [hcells]
    rfl
  · obtain ⟨whole, window, hwhole, hwindow, htiles⟩ := exists_windows hwidth hrows
    refine ⟨whole, window, hwhole, fun i start hx hfits => ?_, htiles⟩
    have hinteger : truncated ((100 * i : ℕ) : ℚ) = (100 * i : ℕ) :=
      truncated_intCast (100 * i : ℕ)
    have hstart : Starts [start] (csvWindow * i) := by
      have hgiven := Starts.given hx (by rwa [hinteger])
      rwa [hinteger, Int.toNat_natCast] at hgiven
    rw [hcsv [start] (csvWindow * i) hstart, hread, hwindow i]
    rfl

/-- The second of two columns of one name is not read, and a start of 1.9 passes over one row. -/
theorem csv_exact_fraction :
    let content := "n,a,a\n1,x,p\n2,y,q\n".toUTF8.data.toList
    let env : Environment := { files := fun _ => .ok (.bytes content) }
    let csv start := apply env .csv [.string "f", .string "a", start]
    (∃ cells, csv (.decimal ⟨19, 1⟩) = .ok (.list (cells.map .string))
      ∧ IsWindow [.ok ["1", "x", "p"], .ok ["2", "y", "q"]] 1 1 2 cells)
    ∧ csv (.decimal ⟨1, -19⟩) = .error (.unsupported (.outOfRange .csv)) := by
  intro content env csv
  have hheader : Csv.header (Csv.records content) = .ok ["n", "a", "a"] :=
    eq_ok_of_toOption (by decide +kernel)
  have hrows : Csv.readings (Csv.records content) = [.ok ["1", "x", "p"], .ok ["2", "y", "q"]] := by
    decide +kernel
  have hpath : (Value.string "f").asText? = some "f" := rfl
  have hname : (Value.string "a").string? = some "a" := rfl
  obtain ⟨hlong, hexact⟩ := csv_exact hpath hname
  constructor
  · have hstart : Starts [.decimal ⟨19, 1⟩] 1 := by
      have hone : truncated (Decimal.value ⟨19, 1⟩) = 1 := by
        rw [← Decimal.wholePart_eq]
        decide
      have hfits : FitsInt64 (truncated (Decimal.value ⟨19, 1⟩)) := by
        rw [hone]
        unfold FitsInt64
        norm_num
      have hgiven := Starts.given (.decimal ⟨19, 1⟩) hfits
      rwa [hone] at hgiven
    obtain ⟨-, hcolumn⟩ := hexact env content ["n", "a", "a"] rfl hheader
    obtain ⟨column, ⟨hname, hfirst⟩, hwindow, -⟩ := hcolumn (by decide)
    obtain ⟨-, hcells, -⟩ := hwindow _ _ hstart
    rw [hrows] at hcells
    have hnone : ∀ i e, i < 1 + 100 →
        ([.ok ["1", "x", "p"], .ok ["2", "y", "q"]] : List Reading)[i]? ≠ some (.error e)
      | 0, _, _ => nofun
      | 1, _, _ => nofun
      | _ + 2, _, _ => nofun
    match column, hname with
    | 1, _ => exact hcells hnone
    | 2, _ => exact absurd rfl (hfirst 1 (by decide))
  · apply hlong env _ _ (.decimal ⟨1, -19⟩)
    rw [not_fitsInt64_iff, ← Decimal.truncate?_eq]
    decide

end Builtin

end TableQuery
