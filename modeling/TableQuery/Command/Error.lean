import TableQuery.Error
import TableQuery.Json.Place
import TableQuery.Schema.Description

/-!
# Errors of the program

What the program was doing when it failed, and why it failed.
-/

namespace TableQuery

/-- A failure of the program. -/
inductive CommandError where
  | unreadable (path : String) (cause : FileError)
  /-- the text of a file is no table description -/
  | notDescription (path text : String) (fault : Json.Fault)
  | noSchema (cause : SchemaError)
  /-- the text of a file is no list of items -/
  | notItems (path : String)
  /-- the text of a file is no item -/
  | notItem (path text : String) (fault : Json.Fault)
  | notCompiled (expression : String) (cause : QueryError)
  /-- the item of a number cannot be tested -/
  | untested (number : Nat) (cause : QueryError)
  | notParsed (expression : String) (cause : QueryError)
  | notLowered (cause : QueryError)
  | notEvaluated (cause : QueryError)
  deriving Repr

/-- The messages of the causes of an error, from the error itself to its first cause. -/
def QueryError.causes : QueryError → List String
  | .csv (.unreadable cause) => [cause.message, cause.message]
  | .csv (.invalidText number start cell offset) =>
    [(Csv.Error.invalidText number start cell offset).message, Csv.invalidCell cell offset]
  | e => [e.message]

namespace CommandError

/-- What the program was doing. -/
def context : CommandError → String
  | .unreadable path _ => "failed to read " ++ path
  | .notDescription path _ _ => path ++ " is not describe-table output"
  | .noSchema _ => "invalid table key schema"
  | .notItems path => path ++ " does not hold items"
  | .notItem path _ _ => path ++ " is not an item"
  | .notCompiled expression _ => "failed to compile '" ++ expression ++ "'"
  | .untested number _ => "failed to evaluate item " ++ Text.natText number
  | .notParsed expression _ => "failed to parse '" ++ expression ++ "'"
  | .notLowered _ => "failed to lower expression"
  | .notEvaluated _ => "evaluation failed"

/-- Why it failed. -/
def causes : CommandError → List String
  | .unreadable _ cause => [cause.message]
  | .notDescription _ text fault | .notItem _ text fault => [fault.message text]
  | .noSchema cause => [cause.message]
  | .notItems _ => ["data did not match any variant of untagged enum ItemsFile"]
  | .notCompiled _ cause | .untested _ cause | .notParsed _ cause | .notLowered cause
  | .notEvaluated cause => cause.causes

/-- A text whose lines after the first are indented. -/
def indented (width : Nat) (text : String) : String :=
  ("\n" ++ String.ofList (List.replicate width ' ')).intercalate (text.splitOn "\n")

/-- The lines of causes: one alone, or each with its number. -/
def causeLines : List String → List String
  | [cause] => ["    " ++ indented 4 cause]
  | causes => causes.zipIdx.map fun (cause, i) =>
      "    " ++ Text.natText i ++ ": " ++ indented 7 cause

/-- What the program writes about an error. -/
def report (e : CommandError) : String :=
  String.join ((["Error: " ++ e.context, "", "Caused by:"] ++ causeLines e.causes).map (· ++ "\n"))

/-- The file that has to be looked at before the program can go on. -/
def unread? : CommandError → Option String
  | .unreadable _ (.unread path) => some path
  | .notCompiled _ (.file (.unread path)) | .untested _ (.file (.unread path))
  | .notEvaluated (.file (.unread path)) => some path
  | _ => none

end CommandError

end TableQuery
