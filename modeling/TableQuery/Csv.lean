import TableQuery.Files
import TableQuery.Text.Digits
import TableQuery.Text.Utf8

/-!
# Comma-separated values

A file of records of cells. A line feed, a carriage return or both end a record, and blank lines are
passed over. A cell in quotes may hold commas and line ends, and a quote in it is written twice; a
quote that is not closed runs to the end of the file. The first record is the header, and all others
have as many cells as it has.
-/

namespace TableQuery.Csv

/-- A place in a file: the bytes before it and the number of its line. -/
structure Position where
  byte : Nat
  line : Nat
  deriving Repr, DecidableEq

/-- The place after one more byte. -/
def Position.next (p : Position) (b : UInt8) : Position :=
  ⟨p.byte + 1, if b = 10 then p.line + 1 else p.line⟩

/-- A record: where the one before it ended, and its cells. -/
structure Record where
  start : Position
  cells : List (List UInt8)
  deriving Repr, DecidableEq

/-- Where a reader stands. -/
inductive Place where
  /-- between records -/
  | between
  /-- at the beginning of a cell -/
  | cellStart
  /-- in a cell, outside of quotes -/
  | plain
  /-- in quotes -/
  | quoted
  /-- behind a quote that closes the quotes or is the first of two -/
  | afterQuote
  deriving Repr, DecidableEq

/-- A reader: its place, what it has read of the record, and the positions of the record and of
the next byte. Cells are kept backwards. -/
structure Reader where
  place : Place
  cell : List UInt8
  cells : List (List UInt8)
  start : Position
  here : Position

namespace Reader

/-- The reader at the beginning of a record. -/
def atRecord (here : Position) : Reader :=
  ⟨.between, [], [], here, here⟩

/-- The record as far as it is read, with the cell in hand as its last. -/
def record (r : Reader) : Record :=
  ⟨r.start, (r.cell.reverse :: r.cells).reverse⟩

/-- The reader behind a byte that belongs to the cell. -/
def keep (r : Reader) (place : Place) (b : UInt8) : Reader :=
  { r with place := place, cell := b :: r.cell, here := r.here.next b }

/-- The reader behind a byte that belongs to no cell. -/
def skip (r : Reader) (place : Place) (b : UInt8) : Reader :=
  { r with place := place, here := r.here.next b }

/-- The reader behind a comma. -/
def nextCell (r : Reader) (b : UInt8) : Reader :=
  { r with place := .cellStart, cell := [], cells := r.cell.reverse :: r.cells,
           here := r.here.next b }

/-- A byte that ends a record. -/
def isLineEnd (b : UInt8) : Bool :=
  b == 10 || b == 13

/-- The reader behind one more byte, or none if the byte ends the record. -/
def step? (r : Reader) (b : UInt8) : Option Reader :=
  let quote : UInt8 := 34
  let comma : UInt8 := 44
  if r.place = .quoted then
    if b = quote then some (r.skip .afterQuote b) else some (r.keep .quoted b)
  else if isLineEnd b then
    if r.place = .between then some (r.skip .between b) else none
  else if b = comma then some (r.nextCell b)
  else if b ≠ quote then some (r.keep .plain b)
  else
    match r.place with
    | .plain => some (r.keep .plain b)
    | .afterQuote => some (r.keep .quoted b)
    | _ => some (r.skip .quoted b)

/-- The records that a reader finds in the bytes before it. -/
def records (r : Reader) : List UInt8 → List Record
  | [] => if r.place = .between then [] else [r.record]
  | b :: rest =>
    match r.step? b with
    | some r => r.records rest
    | none => r.record :: records (atRecord (r.here.next b)) rest

end Reader

/-- The records of a file; a byte order mark in front of it is no part of them. -/
def records (bytes : List UInt8) : List Record :=
  match bytes with
  | 0xEF :: 0xBB :: 0xBF :: rest =>
    Reader.records { Reader.atRecord ⟨0, 1⟩ with here := ⟨3, 1⟩ } rest
  | bytes => Reader.records (Reader.atRecord ⟨0, 1⟩) bytes

/-- Why a file cannot be read as records. -/
inductive Error where
  | unreadable (cause : FileError)
  /-- the record of a number has another count of cells than the header -/
  | unequalLengths (number : Nat) (start : Position) (length expected : Nat)
  /-- a cell of a record stops being text at an offset -/
  | invalidText (number : Nat) (start : Position) (cell offset : Nat)
  deriving Repr, DecidableEq

/-- What is wrong with a cell that stops being text at an offset. -/
def invalidCell (cell offset : Nat) : String :=
  "invalid utf-8: invalid UTF-8 in field " ++ Text.natText cell ++ " near byte index "
    ++ Text.natText offset

/-- The message of an error. -/
def Error.message : Error → String
  | .unreadable cause => cause.message
  | .unequalLengths number start length expected =>
    "CSV error: record " ++ Text.natText number ++ " (line: " ++ Text.natText start.line
      ++ ", byte: " ++ Text.natText start.byte ++ "): found record with " ++ Text.natText length
      ++ " fields, but the previous record has " ++ Text.natText expected ++ " fields"
  | .invalidText number start cell offset =>
    "CSV parse error: record " ++ Text.natText number ++ " (line " ++ Text.natText start.line
      ++ ", field: " ++ Text.natText cell ++ ", byte: " ++ Text.natText start.byte
      ++ "): " ++ invalidCell cell offset

/-- The cells of a record as texts, from the one of a number on. -/
def textsFrom (number : Nat) (start : Position) (cell : Nat) :
    List (List UInt8) → Except Error (List String)
  | [] => .ok []
  | bytes :: rest =>
    match Text.Utf8.decode bytes with
    | .error offset => .error (.invalidText number start cell offset)
    | .ok text => do
      let more ← textsFrom number start (cell + 1) rest
      return text :: more

/-- The cells of a record as texts. -/
def Record.texts (r : Record) (number : Nat) : Except Error (List String) :=
  textsFrom number r.start 0 r.cells

/-- The cells of a record that is not the header, which has `width` of them. -/
def Record.row (r : Record) (number width : Nat) : Except Error (List String) :=
  if r.cells.length = width then r.texts number
  else .error (.unequalLengths number r.start r.cells.length width)

/-- The names of the header; a file without records has none. -/
def header (records : List Record) : Except Error (List String) :=
  match records with
  | [] => .ok []
  | first :: _ => first.texts 0

/-- The rows of a width, numbered from `number` on. -/
def rowsFrom (width number : Nat) : List Record → Except Error (List (List String))
  | [] => .ok []
  | r :: rest => do
    let row ← r.row number width
    let more ← rowsFrom width (number + 1) rest
    return row :: more

/-- The first `count` rows below the header. -/
def rows (records : List Record) (count : Nat) : Except Error (List (List String)) :=
  match records with
  | [] => .ok []
  | first :: rest => rowsFrom first.cells.length 1 (rest.take count)

end TableQuery.Csv
