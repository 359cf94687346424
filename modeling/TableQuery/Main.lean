import TableQuery.Command.Run
import Std.Time.DateTime.Timestamp

/-!
# The program

Shows the plan of an expression, the items that it selects, or its value. The logic is pure: when it
asks for a file that nobody has looked at, the file is read and the command is run again.
-/

namespace TableQuery

/-- How the program is called. -/
def usage : String :=
  "Usage: dynbrowse [--log-level LEVEL] plan --schema FILE EXPRESSION\n"
    ++ "       dynbrowse [--log-level LEVEL] filter --schema FILE --items FILE [--limit COUNT]"
    ++ " EXPRESSION\n"
    ++ "       dynbrowse [--log-level LEVEL] eval [--schema FILE] [--item FILE] EXPRESSION"

/-- Looks under a path. -/
def lookUnder (path : String) : IO (Except FileError File) := do
  if path.toList.contains '\x00' then return .error .nulInPath
  try
    return .ok (.bytes (← IO.FS.readBinFile path).toList)
  catch
    | .noFileOrDirectory .. => return .error .missing
    | .inappropriateType _ 21 _ => return .ok .folder
    | .inappropriateType .. => return .error .notFolder
    | .permissionDenied .. => return .error (.other "Permission denied (os error 13)")
    | e => return .error (.other (toString e))

/-- Runs a command and looks under every path that it asks for. -/
partial def runLooking (env : Environment) (config : Config) (command : Command)
    (found : List (String × Except FileError File)) : IO (Except CommandError String) := do
  let files : Files := fun path => (found.lookup path).getD (.error (.unread path))
  match command.run { env with files } config with
  | .ok text => return .ok text
  | .error e =>
    match e.unread? with
    | some path => runLooking env config command ((path, ← lookUnder path) :: found)
    | none => return .error e

/-- Does what the arguments ask for; the exit code is 1 after an error and 2 if they ask for
nothing. -/
def program (arguments : List String) : IO UInt32 := do
  let some command := Command.ofArguments? arguments
    | IO.eprintln usage
      return 2
  let settings ← Config.variableNames.mapM fun name => return (name, ← IO.getEnv name)
  let config := Config.ofVariables fun name => (settings.lookup name).bind id
  let time := (← Std.Time.Timestamp.now).toSecondsSinceUnixEpoch.toInt
  match ← runLooking { systemTime := Int64.ofInt time } config command [] with
  | .ok text =>
    IO.println text
    return 0
  | .error e =>
    IO.eprint e.report
    return 1

end TableQuery

/-- The program. -/
def main (arguments : List String) : IO UInt32 :=
  TableQuery.program arguments
