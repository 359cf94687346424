import TableQuery.Text.Digits

/-!
# Configuration

The settings that environment variables change.
-/

namespace TableQuery

/-- The settings. -/
structure Config where
  logLevel : String := "warn"
  /-- how many rows a filter gives at most -/
  limit : UInt64 := 1000
  /-- whether edits are refused -/
  readOnly : Bool := false
  deriving Repr, DecidableEq

/-- The names of the variables that change settings. -/
def Config.variableNames : List String :=
  ["LOG_LEVEL", "DYNBROWSE_DEFAULT_LIMIT", "DYNBROWSE_READ_ONLY"]

/-- The settings under some variables; a limit that is no number is no limit. -/
def Config.ofVariables (lookup : String → Option String) : Config where
  logLevel := (lookup "LOG_LEVEL").getD "warn"
  limit := ((lookup "DYNBROWSE_DEFAULT_LIMIT").bind fun text =>
    Text.uint64OfDigits? text.toList).getD 1000
  readOnly := (lookup "DYNBROWSE_READ_ONLY").any
    ["1", "true", "yes", "TRUE", "YES"].contains

end TableQuery
