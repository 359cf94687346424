import TableQuery.Environment
import TableQuery.Value.Arith

/-!
# Calling built-in functions

A function is given values and an environment. Each checks the number of its arguments first, and
then what they are, from the first to the last.
-/

namespace TableQuery.Builtin

/-- The most rows of a file that one call gives. -/
def csvWindow : Nat := 100

/-- The fewest and the most arguments of a function. -/
def arity : Builtin → Nat × Nat
  | .pasteboard | .now => (0, 0)
  | .size | .marked => (1, 1)
  | .range | .mapstr | .add | .concat => (2, 2)
  | .csv => (2, 3)

/-- An argument as a number. -/
def numberArg (f : Builtin) (index : Nat) (v : Value) : Except QueryError Decimal :=
  match v.decimal? with
  | some d => .ok d
  | none => .error (.argumentType f index .number)

/-- An argument as text, whether it is a string or only reads as one. -/
def textArg (f : Builtin) (index : Nat) (v : Value) : Except QueryError String :=
  match v.asText? with
  | some s => .ok s
  | none => .error (.argumentType f index .string)

/-- An argument that has to be a string. -/
def stringArg (f : Builtin) (index : Nat) (v : Value) : Except QueryError String :=
  match v.string? with
  | some s => .ok s
  | none => .error (.argumentType f index .string)

/-- A number cut off at its point. -/
def truncate (f : Builtin) (d : Decimal) : Except QueryError Int64 :=
  match d.truncate? with
  | some n => .ok n
  | none => .error (.unsupported (.outOfRange f))

/-- The integers from one to another, both included. -/
def interval (low high : Int) : List Value :=
  (List.range (high - low + 1).toNat).map fun (k : Nat) => .int (Int64.ofInt (low + k))

/-- How many integers there are from one to another, computed in words of 128 bits. -/
def wordLength (low high : Int64) : BitVec 128 :=
  BitVec.ofInt 128 high.toInt - BitVec.ofInt 128 low.toInt + 1

/-- The integers of a range, if they are not too many. -/
def integers (low high : Int64) : Except QueryError Value :=
  if high.toInt < low.toInt then .ok (.list [])
  else if (wordLength low high).toInt > maxRangeLength then .error (.unsupported .longRange)
  else .ok (.list (interval low.toInt high.toInt))

/-- The records of the file under a path. -/
def csvRecords (files : Files) (path : String) : Except QueryError (List Csv.Record) :=
  match files path with
  | .error cause => .error (.file cause)
  | .ok .folder => .error (.csv (.unreadable .isFolder))
  | .ok (.bytes content) => .ok (Csv.records content)

/-- The cells of a column from the row `start` on, as many as one call gives. All rows before the
last of them have to be readable. -/
def column (records : List Csv.Record) (name : String) (start : Nat) :
    Except QueryError (List String) := do
  let header ← (Csv.header records).mapError QueryError.csv
  let some index := header.findIdx? (· == name)
    | .error (.noColumn name)
  let rows ← (Csv.rows records (start + csvWindow)).mapError QueryError.csv
  return (rows.drop start).map fun row => row.getD index ""

/-- The values of a column of a file. -/
def columnOfFile (files : Files) (path name : String) (start : Nat) :
    Except QueryError Value := do
  let records ← csvRecords files path
  let cells ← column records name start
  return .list (cells.map .string)

/-- The values of an attribute in the marked rows that have it; `index` counts the rows before. -/
def markedFrom (name : String) (index : Nat) :
    List (Item × Bool) → Except QueryError (List Value)
  | [] => .ok []
  | (item, isMarked) :: rest =>
    match if isMarked then Fields.get? name item else none with
    | none => markedFrom name (index + 1) rest
    | some v =>
      match Value.ofStored v with
      | .error cause => .error (.markedItem index name cause)
      | .ok w => do
        let more ← markedFrom name (index + 1) rest
        return w :: more

/-- A text with another in place of every pair of empty braces, from left to right. -/
def fill (text : List Char) : List Char → List Char
  | '\x7b' :: '\x7d' :: rest => text ++ fill text rest
  | c :: rest => c :: fill text rest
  | [] => []

/-- The pattern filled with the text of an element, or the element itself if it has no text. -/
def fillElement (pattern : String) (v : Value) : Value :=
  match v.asText? with
  | some s => .string (String.ofList (fill s.toList pattern.toList))
  | none => v

/-- The pattern filled for each element of `whole`, from the one of an index on. -/
def mapstrFrom (whole : Value) (pattern : String) (index : Nat) :
    List (Option Value) → Except QueryError (List Value)
  | [] => .ok []
  | none :: _ => .error (.noElement whole index)
  | some v :: rest => do
    let more ← mapstrFrom whole pattern (index + 1) rest
    return fillElement pattern v :: more

/-- The lines of a text. -/
def lines (text : List Char) : List (List Char) :=
  match text with
  | [] => [[]]
  | '\n' :: rest => [] :: lines rest
  | c :: rest =>
    match lines rest with
    | line :: more => (c :: line) :: more
    | [] => [[c]]

/-- The result of a function for arguments of the right number. -/
def run (env : Environment) : Builtin → List Value → Except QueryError Value
  | .size, [v] => do return .int (Int64.ofNat (← v.size))
  | .range, [low, high] => do
    let low ← truncate .range (← numberArg .range 0 low)
    let high ← truncate .range (← numberArg .range 1 high)
    integers low high
  | .csv, path :: name :: rest => do
    let path ← textArg .csv 0 path
    let name ← stringArg .csv 1 name
    let start ← match rest with
      | [] => pure 0
      | n :: _ => do pure (← truncate .csv (← numberArg .csv 2 n)).toInt.toNat
    columnOfFile env.files path name start
  | .marked, [name] => do
    let name ← textArg .marked 0 name
    return .list (← markedFrom name 0 (env.rows.getD []))
  | .mapstr, [whole, pattern] => do
    let some elements := whole.elements?
      | .error (.argumentType .mapstr 0 .list)
    let pattern ← textArg .mapstr 1 pattern
    return .list (← mapstrFrom whole pattern 0 elements)
  | .pasteboard, [] =>
    let text := env.clipboardText
    .ok (.list (if text = "" then []
      else (lines text.toList).map fun line => .string (String.ofList line)))
  | .now, [] => .ok (.int env.now)
  | .add, [a, b] => do
    let _ ← numberArg .add 0 a
    let _ ← numberArg .add 1 b
    a.add b
  | .concat, [a, b] => do
    let s ← textArg .concat 0 a
    let t ← textArg .concat 1 b
    return .string (s ++ t)
  | f, args => .error (.argumentCount f f.arity.1 args.length)

/-- The result of a function for its arguments. -/
def apply (env : Environment) (f : Builtin) (args : List Value) : Except QueryError Value :=
  let (fewest, most) := f.arity
  if args.length < fewest then .error (.argumentCount f fewest args.length)
  else if most < args.length then .error (.argumentCount f most args.length)
  else run env f args

end TableQuery.Builtin
