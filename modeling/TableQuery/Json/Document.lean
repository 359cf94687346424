import TableQuery.Json.Decode
import TableQuery.Json.Reader

/-!
# JSON documents

A document is a text that holds one value and nothing else. What is wrong with the value is found
before what is wrong with the text behind it.
-/

namespace TableQuery.Json

/-- How many arrays and objects of a document may be open at a time. -/
def maxDepth : Nat := 127

/-- What `decode` takes from the value of a document, up to a depth. -/
def ofDocument {α : Type} (decode : Json → Decoded α) (depth : Nat) (text : String) :
    Decoded α := do
  let (j, isWhole) := read text
  let a ← decode (j.upTo depth)
  if isWhole then return a else .error malformed

end TableQuery.Json
