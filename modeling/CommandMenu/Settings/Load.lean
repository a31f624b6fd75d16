import CommandMenu.Files.Source
import CommandMenu.Settings.OfToml

/-! # Where settings come from

Settings come in layers.  One file that is named on the command line or in the environment decides
alone; otherwise the file of the project lies over the file of the user.  Variables of the
environment lie over all files.  A file that is not there sets nothing.

Where the settings of a user are kept is up to the system, which may also know of no such place.  It
is told apart from the variables, and does not depend on them.

* `Settings.consulted` are the files that are read, lowest layer first.
* `Settings.load` are the settings in force.
-/

namespace CommandMenu

/-- The variables of the environment. -/
abbrev Environment := String → Option String

namespace Settings

/-- The value of a variable, unless it is blank. -/
def given? (env : Environment) (name : String) : Option String :=
  (env name).bind Text.trimmed?

/-- The settings file of a user, in the directory where the settings of the user are kept. -/
def userFile (directory : String) : String := Path.join (Path.join directory "radial") "config.toml"

/-- The settings file of a project. -/
def projectFile (root : String) : String := Path.join (Path.join root ".radial") "config.toml"

/-- The settings file that is named on the command line or in the environment. -/
def namedFile? (explicit : Option String) (env : Environment) : Option String :=
  explicit.or (given? env "RADIAL_CONFIG")

/-- The files that are read, lowest layer first. -/
def consulted (explicit : Option String) (root : String) (userDirectory : Option String)
    (env : Environment) : List String :=
  match namedFile? explicit env with
  | some path => [path]
  | none => (userDirectory.map userFile).toList ++ [projectFile root]

/-- The layer of a file. -/
def layer (files : Source) (path : String) : Except Fault Settings :=
  if !files.isThere path then .ok {}
  else match files.contents path with
    | .error cause => .error (.settings ("read config " ++ path ++ ": " ++ cause.message))
    | .ok text =>
      match ofToml text with
      | .error failure =>
        .error (.settings ("parse config " ++ path ++ ": " ++ failure.message text))
      | .ok settings => .ok settings

/-- The layer of the environment. -/
def ofEnvironment (env : Environment) : Settings where
  menuFile := given? env "RADIAL_MENU_FILE"
  sizes :=
    { radius := given? env "RADIAL_MENU_RADIUS"
      buttonSize := given? env "RADIAL_BUTTON_SIZE" }

/-- The settings in force.  The first file that cannot be read or understood is reported. -/
def load (files : Source) (explicit : Option String) (root : String)
    (userDirectory : Option String) (env : Environment) : Except Fault Settings := do
  let layers ← (consulted explicit root userDirectory env).mapM (layer files)
  return (ofEnvironment env).orElse (layers.foldl (fun lower upper => upper.orElse lower) {})

end Settings
end CommandMenu
