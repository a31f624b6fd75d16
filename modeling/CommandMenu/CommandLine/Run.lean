import CommandMenu.CommandLine.Arguments
import CommandMenu.Display.Layout
import CommandMenu.Menu.Store
import CommandMenu.Settings.Load

/-! # Running a command

A command reads the settings, then the menu file, and writes what it finds for a reader or for a
program.  A fault is written in the same way, and ends the run with exit code 1.

* `Context` is what a command knows, `Context.ofInvocation` loads it.
* `Command.run` is the output of a command, `Invocation.run` the output of a command line.
-/

namespace CommandMenu

/-- The project, its settings, and who the output is for. -/
structure Context where
  root : String
  settings : Settings
  audience : Audience
deriving Repr

namespace Context

/-- The context of a command line in a working directory. -/
def ofInvocation (files : Source) (env : Environment) (userDirectory : Option String)
    (root : String) (i : Invocation) : Except Fault Context := do
  let settings ← Settings.load files i.settingsFile root userDirectory env
  return ⟨root, settings, i.audience⟩

/-- Whether the output is for a program. -/
def isMachine (c : Context) : Bool := c.audience = .machine

/-- The menu file: the given one, or the configured one. -/
def menuPath? (c : Context) (explicit : Option String) : Option String :=
  (explicit.map (Path.join c.root)).or (c.settings.menuPath? c.root)

end Context

/-! ### Output -/

/-- What a run writes, and how it ends. -/
structure Output where
  exitCode : Nat := 0
  out : String := ""
  err : String := ""
deriving DecidableEq, Repr

namespace Output

/-- A line. -/
def line (s : String) : String := s ++ "\n"

/-- A JSON value on lines of its own. -/
def ofJson (v : Json.Value) : Output := { out := line v.pretty }

/-- A layout. -/
def ofLayout (colours : Bool) (l : Layout) : Output := { out := line (l.render colours) }

/-- The label of a fault. -/
def faultStyle : Style := { colour := some .red, weight := some .bold }

/-- The label of a warning. -/
def warningStyle : Style := { colour := some .yellow, weight := some .bold }

/-- The label of a success. -/
def successStyle : Style := { colour := some .green, weight := some .bold }

/-- A fault.  Programs find it where they look for the output. -/
def ofFault (colours : Bool) (audience : Audience) (f : Fault) : Output :=
  match audience with
  | .machine => { exitCode := 1, out := line f.report.json.pretty }
  | .human =>
    { exitCode := 1
      err := line (faultStyle.apply colours "Error:" ++ " " ++ f.message) ++
        line (Style.dim.apply colours "hint:" ++ " " ++ f.report.suggestion) }

end Output

/-! ### Commands -/

namespace Command

/-- What the menu file with a path says. -/
def readMenu (files : Source) (path : String) (now : Instant) : Except Fault Reading :=
  match files.contents path with
  | .error cause => .error (.unreadable cause)
  | .ok contents => Reading.ofContents (Path.nameForFormat path) contents now

/-- Reads the menu file that a command names, and writes something about it. -/
def readAndWrite (c : Context) (files : Source) (now : Instant) (file : String)
    (write : Reading → Output) : Except Fault Output := do
  let r ← readMenu files (Path.join c.root file) now
  return write r

/-- Writes the menu of a file. -/
def parseOutput (c : Context) (colours : Bool) (file : String) (r : Reading) : Output :=
  if c.isMachine then
    .ofJson (.object [("path", .string file), ("block_found", .bool r.blockFound),
      ("configuration", r.configuration.json), ("warnings", .array (r.warnings.map Warning.json))])
  else
    let note : Layout :=
      if r.blockFound then []
      else [.line "No configuration block found; the menu is empty.", .blank]
    .ofLayout colours (note ++ [.menu r.configuration.actions])

/-- Writes what is odd about a file. -/
def validateOutput (c : Context) (colours : Bool) (file : String) (r : Reading) : Output :=
  let menu := r.configuration.actions
  let actions := (Group.actions menu).length
  let depth := Group.depth menu
  if c.isMachine then
    .ofJson (.object [("valid", .bool true), ("format", r.configuration.format.json),
      ("items", Json.count menu.items.length), ("actions", Json.count actions),
      ("depth", Json.count depth), ("block_found", .bool r.blockFound),
      ("warnings", .array (r.warnings.map Warning.json))])
  else
    let warn (text : String) : String :=
      Output.line (Output.warningStyle.apply colours "warning:" ++ " " ++ text)
    { out := String.join (r.warnings.map fun w => warn w.display) ++
        (if r.blockFound then "" else warn "no configuration block found") ++
        Output.line (Output.successStyle.apply colours "ok" ++ " " ++ file ++ ": " ++
          toString actions ++ " actions, depth " ++ toString depth) }

/-- Writes the block that holds the menu of a Markdown document. -/
def extractOutput (c : Context) (file contents : String) : Output :=
  match Markdown.Block.find? contents, c.isMachine with
  | some b, true =>
    .ofJson (.object [("found", .bool true), ("tag", .string (Text.trim b.tag)),
      ("start", Json.count b.start), ("end", Json.count b.stop), ("body", .string b.body)])
  | none, true => .ofJson (.object [("found", .bool false)])
  | some b, false =>
    { out := String.ofList (b.body.toList.dropWhile fun x => x = '\r' || x = '\n') }
  | none, false => { err := Output.line ("No configuration block found in " ++ file) }

/-- Writes the published menu, and where it comes from. -/
def showOutput (c : Context) (colours : Bool) (origin : String) (m : Configuration) : Output :=
  let style := c.settings.style
  if c.isMachine then
    .ofJson (.object [("source", .string origin), ("configuration", m.json),
      ("style_overrides",
        (Json.Value.object (style.map fun (name, value) => (name, .string value))).sortKeys)])
  else
    let head : Layout :=
      [.title "Radial Menu", .pair "source" origin, .pair "format" m.format.name]
    let sizes : Layout := style.map fun (name, value) => .pair name value
    .ofLayout colours (head ++ sizes ++ [.blank, .menu m.actions])

/-- The menu that is shown, and where it comes from. -/
def shown (c : Context) (files : Source) (now : Instant) (builtin : Bool) :
    Except Fault (String × Configuration) :=
  match if builtin then none else c.menuPath? none with
  | none => .ok ("builtin", .builtin now)
  | some path => do
    let (result, store) := ({} : Store).load files path now
    let number ← result
    return (path, (store.held? number).getD default)

/-- The output of a command. -/
def run (c : Context) (files : Source) (now : Instant) (colours : Bool) :
    Command → Except Fault Output
  | .parse file => readAndWrite c files now file (parseOutput c colours file)
  | .validate file => readAndWrite c files now file (validateOutput c colours file)
  | .extract file =>
    match files.contents (Path.join c.root file) with
    | .error cause => .error (.unreadable cause)
    | .ok contents => .ok (extractOutput c file contents)
  | .show builtin => do
    let (origin, m) ← shown c files now builtin
    return showOutput c colours origin m

end Command

/-- The output of a command line in a working directory. -/
def Invocation.run (files : Source) (env : Environment) (userDirectory : Option String)
    (root : String) (now : Instant) (colours : Bool) (i : Invocation) : Output :=
  let outcome := do
    let c ← Context.ofInvocation files env userDirectory root i
    i.command.run c files now colours
  match outcome with
  | .ok output => output
  | .error f => .ofFault colours i.audience f

end CommandMenu
