import CommandMenu.CommandLine.Run
import CommandMenu.Files.Folder
import Std.Time.DateTime.Timestamp

/-! # The program

Reads the files that a command line needs, runs it on them, and writes the output.
-/

namespace CommandMenu.Program

/-- Why the system did not open or read a file. -/
def readFailure : IO.Error → ReadFailure
  | .noFileOrDirectory .. => .noSuchFile
  | .permissionDenied .. => .other "Permission denied (os error 13)"
  | .inappropriateType .. => .directory
  | .illegalOperation .. => .directory
  | e => .other (toString e)

/-- The contents of a file. -/
def readFile (path : String) : IO (Except ReadFailure String) := do
  try
    let octets ← IO.FS.readBinFile path
    match String.fromUTF8? octets with
    | some text => return .ok text
    | none => return .error .notText
  catch e => return .error (readFailure e)

/-- The files with some paths, as they are now. -/
def snapshot (paths : List String) : IO Source := do
  let files ← paths.mapM fun path => return (path, ← readFile path)
  let find (path : String) : Except ReadFailure String :=
    ((files.find? fun f => f.1 = path).map (·.2)).getD (.error .noSuchFile)
  return {
    isThere := fun path => match find path with
      | .error .noSuchFile => false
      | .error .throughFile => false
      | _ => true
    contents := find
    modified := fun _ => .ok none }

/-- The files that an invocation reads besides the settings. -/
def menuFiles (c : Context) : Command → List String
  | .parse file | .validate file | .extract file => [Path.join c.root file]
  | .show builtin => if builtin then [] else (c.menuPath? none).toList

/-- The time. -/
def now : IO Instant := do
  let t ← Std.Time.Timestamp.now
  return ⟨t.toSecondsSinceUnixEpoch.val, t.val.nano.val.toNat⟩

/-- The values of the variables that the settings depend on. -/
def environment : IO Environment := do
  let names := ["RADIAL_CONFIG", "RADIAL_MENU_FILE", "RADIAL_MENU_RADIUS", "RADIAL_BUTTON_SIZE"]
  let values ← names.mapM fun name => return (name, ← IO.getEnv name)
  return fun name => (values.find? fun v => v.1 = name).bind (·.2)

/-- The directory where the system keeps the settings of the user. -/
def userDirectory : IO (Option String) := do
  match (← IO.getEnv "XDG_CONFIG_HOME").filter Path.isAbsolute with
  | some directory => return some directory
  | none =>
    let home := (← IO.getEnv "HOME").filter fun home => !home.isEmpty
    return home.map fun home => Path.join home ".config"

/-- What is said about the command line instead of running it. -/
def usageText : Usage → String
  | .help | .nothingGiven =>
    "Usage: radial [-O human|json] [-q] [-v] [--config FILE] parse|validate|extract|show [FILE]"
  | .version => "radial 0.1.0"
  | .missingCommand => "a command is missing"
  | .unknownCommand => "there is no such command"
  | .unknownArgument => "an argument was not expected"
  | .missingFile => "a file is missing"
  | .badValue => "a value is missing or wrong"
  | .unwantedValue => "a switch does not take a value"
  | .repeated => "an argument is given twice"

end CommandMenu.Program

open CommandMenu CommandMenu.Program in
/-- Runs the command line. -/
def main (args : List String) : IO UInt32 := do
  match Invocation.ofArguments args with
  | .error usage =>
    if usage.exitCode = 0 then IO.println (usageText usage) else IO.eprintln (usageText usage)
    return UInt32.ofNat usage.exitCode
  | .ok invocation =>
    let env ← environment
    let directory ← userDirectory
    let root := toString (← IO.currentDir)
    let settingsFiles := Settings.consulted invocation.settingsFile root directory env
    let before ← snapshot settingsFiles
    let more := match Context.ofInvocation before env directory root invocation with
      | .ok c => menuFiles c invocation.command
      | .error _ => []
    let files ← snapshot (settingsFiles ++ more)
    let colours ← (← IO.getStdout).isTty
    let output := invocation.run files env directory root (← now) colours
    IO.print output.out
    IO.eprint output.err
    return UInt32.ofNat output.exitCode
