import TableQuery.Files
import TableQuery.Stored.Basic

/-!
# Environments

What the built-in functions can see besides their arguments. A capability that an environment lacks
gives the neutral result.
-/

namespace TableQuery

/-- The surroundings of an evaluation. -/
structure Environment where
  /-- the rows of the current result set, with their marks -/
  rows : Option (List (Item × Bool)) := none
  /-- the clipboard, which may hold no text -/
  clipboard : Option (Option String) := none
  /-- the clock, in seconds since the epoch -/
  clock : Option Int64 := none
  /-- the time where there is no clock -/
  systemTime : Int64 := 0
  files : Files := Files.none

namespace Environment

/-- The current time. -/
def now (env : Environment) : Int64 :=
  env.clock.getD env.systemTime

/-- The text of the clipboard, empty if there is none. -/
def clipboardText (env : Environment) : String :=
  (env.clipboard.bind id).getD ""

/-- Which capabilities there are. -/
def describe (env : Environment) : String :=
  let rows := match env.rows with
    | some rows => "Some(" ++ Text.natText rows.length ++ ")"
    | none => "None"
  "ExecContext \x7b result_set: " ++ rows ++ ", clipboard: " ++ flag env.clipboard.isSome
    ++ ", time_source: " ++ flag env.clock.isSome ++ " \x7d"
where
  /-- The text of a truth value. -/
  flag (b : Bool) : String := if b then "true" else "false"

end Environment

end TableQuery
