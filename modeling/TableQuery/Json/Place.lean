import TableQuery.Json.Decode
import TableQuery.Json.Reader

/-!
# Places of faults

A fault names the part of a tree in which it is. Reading the text again as far as that part gives
the line and the column.
-/

namespace TableQuery.Json

/-- What follows the value at the front of a text. -/
def behindValue (s : List Char) : List Char :=
  match value s with
  | (_, some rest) => rest.1
  | (_, none) => []

/-- What follows the name at the front of a text. -/
def behindName (s : List Char) : List Char :=
  match skip s with
  | '"' :: r => (text? r).elim [] fun (_, rest) => rest.1
  | _ => []

/-- The value of the part of an array or object at the front of a text; without a name, the value is
all of the part. -/
def contentOf (isObject : Bool) (s : List Char) : List Char :=
  if isObject && (skip s).head? == some '"' then (skip (behindName s)).drop 1 else s

/-- The part of a number, where `s` is the text of an array or object from its first part on. -/
def partOf (isObject : Bool) : Nat → List Char → List Char
  | 0, s => s
  | i + 1, s => partOf isObject i ((skip (behindValue (contentOf isObject s))).drop 1)

/-- The text from the part on to which the numbers lead, and from its value on. -/
def follow : List Nat → List Char → List Char → List Char × List Char
  | [], part, content => (part, content)
  | i :: path, _, content =>
    let s := skip content
    let isObject := s.head? == some '\x7b'
    let part := partOf isObject i (s.drop 1)
    follow path part (contentOf isObject part)

/-- A text without the brace in front of it. -/
def dropBrace (s : List Char) : List Char :=
  if s.head? == some '\x7d' then s.drop 1 else s

/-- What follows the place of a fault in a text. -/
def Fault.behind (f : Fault) (text : List Char) : List Char :=
  let (part, content) := follow f.path text text
  match f.side with
  | .name => behindName part
  | .colon => dropBrace (skip (behindName part))
  | .close => behindValue content
  | .parent => dropBrace (skip (behindValue content))
  | .value =>
    let s := skip content
    if s.head? == some '[' || s.head? == some '\x7b' then s else behindValue s

/-- The message of a fault in a text, with the line and the bytes of it before the fault. -/
def Fault.message (f : Fault) (text : String) : String :=
  let text := text.toList
  let before := text.take (text.length - (f.behind text).length)
  let line := before.reverse.takeWhile (· ≠ '\n')
  f.cause.message ++ " at line " ++ Text.natText (before.count '\n' + 1) ++ " column "
    ++ Text.natText (String.ofList line).utf8ByteSize

end TableQuery.Json
