import CommandMenu.Files.Path
import CommandMenu.Files.Source

/-! # Files held in memory

A tree of folders and files, given by the places of its entries.  Paths are followed as a file
system without links follows them.

* `Folders` is the tree; `put` and `remove` change one entry of it.
* `Folders.find` follows a path, `Folders.source` answers for all paths.
* `Table` is a source of files by their exact paths, without folders.
-/

namespace CommandMenu

/-- An entry of a folder.  A file that is no text has no contents. -/
inductive FolderEntry where
  | folder
  | file (contents : Option String)
deriving DecidableEq, Repr

/-- A place in a tree of folders: the names from the root to it. -/
abbrev Place := List String

/-- The entries of a tree with the times of their last changes. -/
structure Folders where
  entries : List (Place × FolderEntry × Option Instant)

namespace Folders

/-- The tree that has only its root. -/
def empty : Folders := ⟨[]⟩

/-- The entry at a place. -/
def entry? (t : Folders) (place : Place) : Option (FolderEntry × Option Instant) :=
  if place.isEmpty then some (.folder, none)
  else (t.entries.find? fun e => e.1 = place).map (·.2)

/-- Whether a place is a folder. -/
def isFolder (t : Folders) (place : Place) : Bool :=
  match t.entry? place with
  | some (.folder, _) => true
  | _ => false

/-- The tree without a place and what lies below it. -/
def remove (t : Folders) (place : Place) : Folders :=
  ⟨t.entries.filter fun e => !(place.isPrefixOf e.1)⟩

/-- The tree with a folder at a place and above it. -/
def withFolder (t : Folders) (place : Place) (time : Option Instant) : Folders :=
  (List.range (place.length + 1)).foldl (fun t n =>
    let above := place.take n
    if t.isFolder above then t else ⟨t.entries ++ [(above, .folder, time)]⟩) t

/-- The tree with an entry at a place.  Folders above it are made, and what was there is gone. -/
def put (t : Folders) (place : Place) (entry : FolderEntry) (time : Option Instant) : Folders :=
  let t := (t.remove place).withFolder place.dropLast time
  ⟨t.entries ++ [(place, entry, time)]⟩

/-- How many octets the name of an entry may have. -/
def maxName : Nat := 255

/-- Follows the parts of a path from a place. -/
def walk (t : Folders) : Place → List String → Except ReadFailure Place
  | place, [] => .ok place
  | place, part :: rest =>
    if !t.isFolder place then .error .throughFile
    else if part = "" || part = "." then walk t place rest
    else if part = ".." then walk t place.dropLast rest
    else if part.utf8ByteSize > maxName then .error .longName
    else if (t.entry? (place ++ [part])).isSome then walk t (place ++ [part]) rest
    else .error .noSuchFile

/-- The place that a path leads to from a working directory. -/
def find (t : Folders) (working : Place) (path : String) : Except ReadFailure Place :=
  if path.isEmpty then .error .noSuchFile
  else if path.toList.contains '\x00' then .error .badName
  else
    t.walk (if Path.isAbsolute path then [] else working)
      ((Text.split '/' path.toList).map String.ofList)

/-- The entry that a path leads to. -/
def resolve (t : Folders) (working : Place) (path : String) :
    Except ReadFailure (FolderEntry × Option Instant) := do
  let place ← t.find working path
  match t.entry? place with
  | some found => return found
  | none => throw .noSuchFile

/-- The contents of the file that a path leads to. -/
def contents (t : Folders) (working : Place) (path : String) : Except ReadFailure String := do
  match ← t.resolve working path with
  | (.folder, _) => throw .directory
  | (.file none, _) => throw .notText
  | (.file (some text), _) => return text

/-- The answers for all paths, from a working directory. -/
def source (t : Folders) (working : Place) : Source where
  isThere path := (t.resolve working path).toOption.isSome
  contents := t.contents working
  modified path := (t.resolve working path).map (·.2)

end Folders

/-! ### Tables -/

/-- A file of a table.  Reading it, or asking for the time of its last change, may be denied. -/
structure TableFile where
  contents : Option String := none
  modified : Option Instant := none
  readDenied : Option ReadFailure.Kind := none
  modifiedDenied : Option ReadFailure.Kind := none
deriving Repr

/-- Files by their exact paths. -/
structure Table where
  files : List (String × TableFile)

namespace Table

/-- The file with a path. -/
def file (t : Table) (path : String) : TableFile :=
  ((t.files.find? fun f => f.1 = path).map (·.2)).getD {}

/-- Changes the file with a path. -/
def change (t : Table) (path : String) (f : TableFile → TableFile) : Table :=
  ⟨(path, f (t.file path)) :: t.files.filter (·.1 ≠ path)⟩

/-- The answers for all paths. -/
def source (t : Table) : Source where
  isThere path := (t.file path).contents.isSome
  contents path :=
    match (t.file path).readDenied, (t.file path).contents with
    | some kind, _ => .error (.stated kind)
    | none, some text => .ok text
    | none, none => .error (.stated .notFound)
  modified path :=
    match (t.file path).modifiedDenied, (t.file path).contents with
    | some kind, _ => .error (.stated kind)
    | none, some _ => .ok (t.file path).modified
    | none, none => .error (.stated .notFound)

end Table
end CommandMenu
