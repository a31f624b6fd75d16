import CommandMenu.Text.Parts

/-! # Paths

A path is a text whose parts are set apart by slashes.  An absolute path starts with a slash.

* `Path.join` finds a path from another one, `Path.fileName?` is the last part of a path.
* `Path.nameForFormat` is the name by which the format of a file is told.
-/

namespace CommandMenu.Path

/-- Whether a path starts at the root. -/
def isAbsolute (path : String) : Bool := path.toList.head? == some '/'

/-- The path that is reached from a directory.  An absolute path does not depend on it. -/
def join (base path : String) : String :=
  if isAbsolute path || base.isEmpty then path
  else if base.toList.getLast? == some '/' then base ++ path
  else base ++ "/" ++ path

/-- The parts of a path that name something: empty parts and single points do not. -/
def parts (path : String) : List String :=
  ((Text.split '/' path.toList).map String.ofList).filter fun part => part ≠ "" && part ≠ "."

/-- The last part of a path, unless it leads upwards or to the root. -/
def fileName? (path : String) : Option String := (parts path).getLast?.filter (· ≠ "..")

/-- The name by which the format of a file is told: its last part, or the whole path if it has
none. -/
def nameForFormat (path : String) : String := (fileName? path).getD path

end CommandMenu.Path
