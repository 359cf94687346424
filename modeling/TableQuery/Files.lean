/-!
# Files

What can be found under a path, and a folder of files that paths are looked up in.
-/

namespace TableQuery

/-- Why nothing can be read under a path. -/
inductive FileError where
  | missing
  /-- the path leads through a file as if it were a folder -/
  | notFolder
  | isFolder
  | nulInPath
  /-- the file is no text -/
  | notText
  | other (reason : String)
  /-- nobody has looked under the path yet -/
  | unread (path : String)
  deriving Repr, DecidableEq

/-- The message of a file error. -/
def FileError.message : FileError → String
  | .missing => "No such file or directory (os error 2)"
  | .notFolder => "Not a directory (os error 20)"
  | .isFolder => "Is a directory (os error 21)"
  | .nulInPath => "file name contained an unexpected NUL byte"
  | .notText => "stream did not contain valid UTF-8"
  | .other reason => reason
  | .unread path => path ++ ": not read"

/-- What stands under a path. -/
inductive File where
  | bytes (content : List UInt8)
  | folder
  deriving Repr, DecidableEq

/-- What can be opened under each path. -/
abbrev Files := String → Except FileError File

namespace Files

/-- There is no file at all. -/
def none : Files := fun _ => .error .missing

/-- The names that a path leads through. -/
def parts (path : String) : List String :=
  (path.splitOn "/").filter fun part => part ≠ "" && part ≠ "."

/-- What the entries of a folder hold under the names after `here`. Above the folder itself nothing
is known but that there are folders. -/
def lookup (entries : List (String × File)) (here : List String) :
    List String → Except FileError File
  | [] =>
    match entries.lookup (pathOf here) with
    | some file => .ok file
    | Option.none => if isFolder here then .ok .folder else .error .missing
  | name :: rest =>
    if (entries.lookup (pathOf here)).any fun file => file != .folder then .error .notFolder
    else if !isFolder here then .error .missing
    else if name ≠ ".." then lookup entries (here ++ [name]) rest
    else if here ≠ [] then lookup entries here.dropLast rest
    else if rest.all (· == "..") then .ok .folder
    else .error .missing
where
  /-- The path of some names. -/
  pathOf (names : List String) : String := "/".intercalate names
  /-- A path leads to a folder if an entry is one there, or an entry is below it. -/
  isFolder (names : List String) : Bool :=
    names.isEmpty || entries.any fun (name, file) =>
      (name == pathOf names && file == .folder)
        || (pathOf names ++ "/").toList.isPrefixOf name.toList

/-- The files of a folder, of which `entries` lists the paths. -/
def ofEntries (entries : List (String × File)) : Files := fun path =>
  if path.toList.contains '\x00' then .error .nulInPath
  else if path = "" then .error .missing
  else if path.startsWith "/" then
    if (parts path).isEmpty then .ok .folder else .error .missing
  else do
    let file ← lookup entries [] (parts path)
    if file != .folder && (path.endsWith "/" || path.endsWith "/.") then .error .notFolder
    else return file

end Files

end TableQuery
