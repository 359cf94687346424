import TableQuery.Command.Arguments
import TableQuery.Command.Error
import TableQuery.Config
import TableQuery.Json.Printer
import TableQuery.Json.Record
import TableQuery.Plan
import TableQuery.Schema.Json
import TableQuery.Text.Utf8

/-!
# Running commands

What each command answers: a plan, the items of a file that an expression selects, or a value. The
answer is shown as text. A command fails at the first thing that goes wrong.
-/

namespace TableQuery.Command

/-- The text of the file under a path. -/
def readText (env : Environment) (path : String) : Except CommandError String :=
  match env.files path with
  | .error cause => .error (.unreadable path cause)
  | .ok .folder => .error (.unreadable path .isFolder)
  | .ok (.bytes content) =>
    (Text.Utf8.decode content).mapError fun _ => .unreadable path .notText

/-- The schema that a file describes. -/
def readSchema (env : Environment) (path : String) : Except CommandError TableSchema := do
  let text ← readText env path
  let description ← (TableDescription.ofText text).mapError (.notDescription path text)
  description.resolve.mapError .noSchema

/-- The items of a JSON tree: a list, or the member `Items` of an object. -/
def itemsOfJson (j : Json) : Json.Decoded (List Item) := do
  Json.readAhead j
  match j with
  | .object members _ =>
    match members.filter fun (name, _) => name == "Items" with
    | [(_, j)] => Json.asList Item.ofJson j
    | _ => .error Json.malformed
  | j => Json.asList Item.ofJson j

/-- The items of a file. -/
def readItems (env : Environment) (path : String) : Except CommandError (List Item) := do
  let text ← readText env path
  (Json.ofDocument itemsOfJson Json.maxDepth text).mapError fun _ => .notItems path

/-- The item of a file. -/
def readItem (env : Environment) (path : String) : Except CommandError Item := do
  let text ← readText env path
  (Item.ofText text).mapError (.notItem path text)

/-- The first items that a plan selects, at most `limit` of them; `number` items come before. No
item is tested behind the last of them. -/
def select (env : Environment) (plan : Plan) (limit number : Nat) :
    List Item → Except CommandError (List Item)
  | [] => .ok []
  | item :: rest =>
    if limit = 0 then .ok []
    else do
      if ← (plan.matches? env item).mapError (.untested number) then
        return item :: (← select env plan (limit - 1) (number + 1) rest)
      else select env plan limit (number + 1) rest

/-- The JSON of the selected items among some number of them. -/
def selectionJson (selected : List Item) (total : Nat) : Json :=
  .ofMembers [("Count", .number (Text.natText selected.length)),
    ("Items", .ofElements (selected.map Item.toJson)),
    ("ScannedCount", .number (Text.natText total))]

/-- The plan of an expression. -/
def compile (env : Environment) (schema : TableSchema) (expression : String) :
    Except CommandError Plan :=
  (Plan.compile env schema expression).mapError (.notCompiled expression)

/-- The value of an expression for an item. -/
def evaluate (env : Environment) (schema : TableSchema) (item : Item) (expression : String) :
    Except CommandError Value := do
  let e ← (Expr.parse expression).mapError fun cause => .notParsed expression (.malformed cause)
  let t ← (Term.ofExpr schema e).mapError .notLowered
  (t.eval env item).mapError .notEvaluated

/-- The line that tells the version. -/
def versionText : String := "dynbrowse 0.3.0"

/-- The answer of a command: a line of text, or a tree. -/
inductive Answer where
  | line (text : String)
  | tree (j : Json)
  deriving Repr, Inhabited

/-- How an answer is shown. -/
def Answer.text : Answer → String
  | .line text => text
  | .tree j => j.pretty 0

/-- What a command answers. -/
def answer (env : Environment) (config : Config) : Command → Except CommandError Answer
  | .version => .ok (.line versionText)
  | .plan schema expression => do
    let plan ← compile env (← readSchema env schema) expression
    return .tree plan.toJson
  | .filter schema items limit expression => do
    let schema ← readSchema env schema
    let items ← readItems env items
    let plan ← compile env schema expression
    let selected ← select env plan (limit.getD config.limit).toNat 0 items
    return .tree (selectionJson selected items.length)
  | .eval schema item expression => do
    let schema ← schema.elim (.ok .detached) (readSchema env)
    let item ← item.elim (.ok []) (readItem env)
    let v ← evaluate env schema item expression
    return .tree v.toStored.toJson

/-- What a command shows. -/
def run (env : Environment) (config : Config) (command : Command) : Except CommandError String :=
  (command.answer env config).map Answer.text

end TableQuery.Command
