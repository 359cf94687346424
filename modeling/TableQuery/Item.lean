import TableQuery.Error

/-!
# Paths into items

Reading, writing and removing the value that a path leads to. Writing makes the maps that the path
needs on its way, and they stay even if it fails further on; removing changes nothing if it fails.
-/

namespace TableQuery

/-- The steps of a path from the attributes of an item on. -/
def Path.fromRoot (p : Path) : List Step :=
  .key p.root :: p.steps.drop 1

namespace Stored

/-- The value that the rest of a path leads to. -/
def get (path : Path) : List Step → Stored → Except QueryError Stored
  | [], v => .ok v
  | .key k :: rest, .map fields =>
    match Fields.get? k fields with
    | some v => get path rest v
    | none => .error (.nameNotFound path)
  | .key _ :: _, _ => .error (.notAMap path)
  | .index i :: rest, .list xs =>
    match xs[i.toNat]? with
    | some v => get path rest v
    | none => .error (.nameNotFound path)
  | .index _ :: _, _ => .error (.nameNotFound path)

/-- The value with `value` written where the rest of a path leads to, and whether that was done. -/
def set (path : Path) (value : Stored) :
    List Step → Stored → Stored × Except QueryError Unit
  | [], _ => (value, .ok ())
  | .key k :: rest, .map fields =>
    let (child, result) := set path value rest ((Fields.get? k fields).getD (.map []))
    (.map (Fields.insert k child fields), result)
  | .key _ :: _, v => (v, .error (.notAMap path))
  | .index i :: rest, .list xs =>
    match xs[i.toNat]? with
    | some v =>
      let (child, result) := set path value rest v
      (.list (xs.set i.toNat child), result)
    | none => (.list xs, .error (.nameNotFound path))
  | .index _ :: _, v => (v, .error (.unsupported (.indexing path)))

/-- The value at one step, and what is left without it. -/
def removeStep (path : Path) : Step → Stored → Except QueryError (Stored × Stored)
  | .key k, .map fields =>
    match Fields.get? k fields with
    | some v => .ok (v, .map (Fields.erase k fields))
    | none => .error (.nameNotFound path)
  | .key _, _ => .error (.notAMap path)
  | .index i, .list xs =>
    match xs[i.toNat]? with
    | some v => .ok (v, .list (xs.eraseIdx i.toNat))
    | none => .error (.nameNotFound path)
  | .index _, _ => .error (.unsupported (.indexing path))

/-- The value where the rest of a path leads to, and what is left without it. `parent` is the path
without its last step. -/
def remove (path parent : Path) : List Step → Stored → Except QueryError (Stored × Stored)
  | [], _ => .error (.nameNotFound path)
  | [last], v => removeStep path last v
  | .key k :: next :: rest, .map fields =>
    match Fields.get? k fields with
    | some v => do
      let (removed, child) ← remove path parent (next :: rest) v
      return (removed, .map (Fields.insert k child fields))
    | none => .error (.nameNotFound path)
  | .key _ :: _ :: _, _ => .error (.notAMap parent)
  | .index i :: next :: rest, .list xs =>
    match xs[i.toNat]? with
    | some v => do
      let (removed, child) ← remove path parent (next :: rest) v
      return (removed, .list (xs.set i.toNat child))
    | none => .error (.nameNotFound path)
  | .index _ :: _ :: _, _ => .error (.unsupported (.indexing parent))

end Stored

namespace Item

/-- The stored value that a path leads to. -/
def get (item : Item) (path : Path) : Except QueryError Stored :=
  Stored.get path path.fromRoot (.map item)

/-- The item with `value` written where a path leads to, and whether that was done. -/
def set (item : Item) (path : Path) (value : Stored) : Item × Except QueryError Unit :=
  let start := (Fields.get? path.root item).getD (.map [])
  let (child, result) := Stored.set path value (path.steps.drop 1) start
  (Fields.insert path.root child item, result)

/-- The value where a path leads to, and the item without it. -/
def remove (item : Item) (path : Path) : Except QueryError (Stored × Item) :=
  let parent : Path := ⟨path.steps.dropLast⟩
  match path.steps with
  | [] => .error (.nameNotFound path)
  | [_] =>
    match Fields.get? path.root item with
    | some v => .ok (v, Fields.erase path.root item)
    | none => .error (.nameNotFound path)
  | _ :: rest =>
    match Fields.get? path.root item with
    | some v => do
      let (removed, child) ← Stored.remove path parent rest v
      return (removed, Fields.insert path.root child item)
    | none => .error (.nameNotFound path)

end Item

end TableQuery
