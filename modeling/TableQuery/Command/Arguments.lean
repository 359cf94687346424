import TableQuery.Text.Digits

/-!
# The command line

What the arguments of the program ask for. Options have a name behind two hyphens and a value, which
is the next argument or follows an equals sign; two hyphens alone end the options.
-/

namespace TableQuery

/-- What the program is asked to do. -/
inductive Command where
  | version
  /-- to show the plan of an expression -/
  | plan (schema expression : String)
  /-- to show the items of a file that an expression selects, at most `limit` of them -/
  | filter (schema items : String) (limit : Option UInt64) (expression : String)
  /-- to show the value of an expression -/
  | eval (schema item : Option String) (expression : String)
  deriving Repr, DecidableEq

namespace Command

/-- Arguments taken apart. -/
structure Arguments where
  options : List (String × String) := []
  positional : List String := []
  deriving Repr, DecidableEq

/-- The value of an option. -/
def Arguments.option? (a : Arguments) (name : String) : Option String :=
  a.options.lookup name

/-- The name and the value of an option are one argument, or the name alone. -/
def splitOption (argument : List Char) : String × Option String :=
  let name := String.ofList (argument.takeWhile (· ≠ '='))
  match argument.dropWhile (· ≠ '=') with
  | [] => (name, none)
  | _ :: value => (name, some (String.ofList value))

/-- An argument that begins with a hyphen is no value; a hyphen alone is one. -/
def isValue (argument : String) : Bool :=
  argument = "-" || argument.toList.head? ≠ some '-'

/-- Takes arguments apart, if each option is a `known` one, has a value and comes once. -/
def Arguments.read? (known : List String) : List String → Option Arguments
  | [] => some {}
  | argument :: rest =>
    if argument = "--" then some { positional := rest }
    else if isValue argument then do
      let a ← read? known rest
      return { a with positional := argument :: a.positional }
    else if !argument.startsWith "--" then none
    else
      match splitOption (argument.toList.drop 2), rest with
      | (name, some value), rest => do
        if !known.contains name then none
        option? (name, value) (← read? (known.erase name) rest)
      | (name, none), value :: rest => do
        if !known.contains name || !isValue value then none
        option? (name, value) (← read? (known.erase name) rest)
      | (_, none), [] => none
where
  /-- Arguments with one more option in front. -/
  option? (entry : String × String) (a : Arguments) : Option Arguments :=
    some { a with options := entry :: a.options }

/-- The option that every command has: how much is logged. -/
def logOption : String := "log-level"

/-- The path of a file; no path is empty. -/
def path? (text : String) : Option String :=
  if text = "" then none else some text

/-- The value of an option that may be missing, if it can be read. -/
def optional? {α : Type} (read? : String → Option α) : Option String → Option (Option α)
  | none => some none
  | some text => (read? text).map some

/-- The command of a name and its arguments. -/
def ofName? (name : String) (arguments : List String) : Option Command := do
  if name = "plan" then
    let a ← Arguments.read? [logOption, "schema"] arguments
    let [expression] := a.positional | none
    return .plan (← path? (← a.option? "schema")) expression
  else if name = "filter" then
    let a ← Arguments.read? [logOption, "schema", "items", "limit"] arguments
    let [expression] := a.positional | none
    let limit ← optional? (fun text => Text.uint64OfDigits? text.toList) (a.option? "limit")
    return .filter (← path? (← a.option? "schema")) (← path? (← a.option? "items")) limit
      expression
  else if name = "eval" then
    let a ← Arguments.read? [logOption, "schema", "item"] arguments
    let [expression] := a.positional | none
    return .eval (← optional? path? (a.option? "schema")) (← optional? path? (a.option? "item"))
      expression
  else none

/-- What some arguments ask for, if they ask for anything. Only the log level may stand before the
name of the command. -/
def ofArguments? : List String → Option Command
  | [] => none
  | argument :: rest =>
    if argument = "--version" || argument.startsWith "-V" then some .version
    else if isValue argument then ofName? argument rest
    else
      match splitOption (argument.toList.drop 2), rest with
      | (name, some _), rest => afterLevel? (argument.startsWith "--" && name = logOption) rest
      | (name, none), value :: rest =>
        afterLevel? (argument.startsWith "--" && name = logOption && isValue value) rest
      | (_, none), [] => none
where
  /-- What the arguments behind the log level ask for. -/
  afterLevel? (isLevel : Bool) : List String → Option Command
    | [] => none
    | argument :: rest =>
      if !isLevel then none
      else if argument = "--version" || argument.startsWith "-V" then some .version
      else if isValue argument then ofName? argument rest
      else none

end Command

end TableQuery
