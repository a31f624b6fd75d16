/-! # The command line

A command line names one command, options that hold for all commands, and what the command asks for.
Options may stand in front of the command and behind it; what stands behind counts.

* `Invocation` is what a command line asks for, `Invocation.ofArguments` reads it.  Switches that are
  about logging are read and checked, and then left out.
* `Usage` says why nothing is run: help was asked for, or the command line is wrong.
-/

namespace CommandMenu

/-- Who the output is written for. -/
inductive Audience where
  | human
  | machine
deriving DecidableEq, Repr, Inhabited

/-- What is run. -/
inductive Command where
  | parse (file : String)
  | validate (file : String)
  | extract (file : String)
  | «show» (builtin : Bool)
deriving DecidableEq, Repr

/-- What a command line asks for. -/
structure Invocation where
  command : Command
  audience : Audience := .human
  settingsFile : Option String := none
deriving DecidableEq, Repr

/-- Why nothing is run. -/
inductive Usage where
  | help
  | version
  | nothingGiven
  | missingCommand
  | unknownCommand
  | unknownArgument
  | missingFile
  | badValue
  | unwantedValue
  | repeated
deriving DecidableEq, Repr

/-- The exit code.  Asking for help is no mistake. -/
def Usage.exitCode : Usage → Nat
  | .help | .version => 0
  | _ => 2

namespace Arguments

/-- The commands by name. -/
inductive Verb where
  | parse
  | validate
  | extract
  | «show»
deriving DecidableEq, Repr

/-- The command with a name. -/
def Verb.ofName? : String → Option Verb
  | "parse" => some .parse
  | "validate" => some .validate
  | "extract" => some .extract
  | "show" => some .show
  | _ => none

/-- Whether a command takes a file. -/
def Verb.takesFile : Verb → Bool
  | .show => false
  | _ => true

/-- The name of the command that explains the others. -/
def helpName : String := "help"

/-- What an argument with dashes stands for. -/
inductive Switch where
  | audience
  | settingsFile
  | verbose
  | quiet
  | builtin
  | help
  | version
deriving DecidableEq, Repr

/-- Whether a switch takes a value. -/
def Switch.takesValue : Switch → Bool
  | .audience | .settingsFile => true
  | _ => false

/-- The switch with a long name.  `verb` is the command in front, if any. -/
def Switch.ofName? (verb : Option Verb) : String → Option Switch
  | "output-format" => some .audience
  | "config" => some .settingsFile
  | "verbose" => some .verbose
  | "quiet" => some .quiet
  | "help" => some .help
  | "version" => some .version
  | "builtin" => if verb = some .show then some .builtin else none
  | _ => none

/-- The switch with a letter. -/
def Switch.ofLetter? : Char → Option Switch
  | 'O' => some .audience
  | 'v' => some .verbose
  | 'q' => some .quiet
  | 'h' => some .help
  | 'V' => some .version
  | _ => none

/-! ### What was given -/

/-- What still waits to be taken up: a switch with its value if that has come, or a file. -/
inductive Pending where
  | nothing
  | switch (switch : Switch) (value : Option String)
  | file (path : String)
deriving DecidableEq, Repr

/-- What was given in front of the command, or behind it. -/
structure Given where
  audience : Option Audience := none
  settingsFile : Option String := none
  verbose : Bool := false
  quiet : Bool := false
  builtin : Bool := false
  file : Option String := none
  pending : Pending := .nothing
deriving DecidableEq, Repr, Inhabited

namespace Given

/-- Whether nothing was given. -/
def isEmpty (g : Given) : Bool := g == {}

/-- The audience with a name. -/
def audienceOfName? : String → Option Audience
  | "human" => some .human
  | "json" => some .machine
  | _ => none

/-- Takes up the value of a switch.  A switch may be given once. -/
def take (g : Given) (s : Switch) (value : String) : Except Usage Given :=
  match s with
  | .audience =>
    if g.audience.isSome then .error .repeated
    else match audienceOfName? value with
      | some a => .ok { g with audience := some a }
      | none => .error .badValue
  | .settingsFile =>
    if g.settingsFile.isSome then .error .repeated
    else if value.isEmpty then .error .badValue
    else .ok { g with settingsFile := some value }
  | _ => .ok g

/-- Takes up what waits. -/
def settle (g : Given) : Except Usage Given :=
  let rest := { g with pending := .nothing }
  match g.pending with
  | .nothing => .ok g
  | .switch _ none => .error .badValue
  | .switch s (some value) => rest.take s value
  | .file path => if path.isEmpty then .error .badValue else .ok { rest with file := some path }

/-- Takes up a switch without a value. -/
def press (g : Given) (s : Switch) : Except Usage Given := do
  let g ← g.settle
  match s with
  | .verbose => return { g with verbose := true }
  | .quiet => if g.quiet then throw .repeated else return { g with quiet := true }
  | .builtin => if g.builtin then throw .repeated else return { g with builtin := true }
  | .help => throw .help
  | .version => throw .version
  | .audience | .settingsFile => return g

/-- Takes up a switch with a value, which follows if it is not attached. -/
def fill (g : Given) (s : Switch) (attached : Option String) : Except Usage Given := do
  let g ← g.settle
  match attached with
  | some value => g.take s value
  | none => return { g with pending := .switch s none }

end Given

/-! ### Arguments -/

/-- Reads an argument with two dashes. -/
def readLong (verb : Option Verb) (g : Given) (cs : List Char) : Except Usage Given :=
  let name := cs.takeWhile (· != '=')
  let attached := if cs.contains '=' then some (String.ofList ((cs.dropWhile (· != '=')).drop 1))
    else none
  match Switch.ofName? verb (String.ofList name) with
  | none => .error .unknownArgument
  | some s =>
    if s.takesValue then g.fill s attached
    else if attached.isSome then .error .unwantedValue
    else g.press s

/-- Reads the letters of an argument with one dash.  A switch with a value takes the rest. -/
def readLetters (g : Given) : List Char → Except Usage Given
  | [] => .ok g
  | c :: cs =>
    match Switch.ofLetter? c with
    | none => .error .unknownArgument
    | some s =>
      if s.takesValue then
        match cs with
        | [] => g.fill s none
        | '=' :: value => g.fill s (some (String.ofList value))
        | value => g.fill s (some (String.ofList value))
      else do
        let g ← g.press s
        readLetters g cs

/-- What an argument is by its form. -/
inductive Form where
  | separator
  | long (rest : List Char)
  | short (letters : List Char)
  | plain

/-- The form of an argument. -/
def formOf (arg : String) : Form :=
  match arg.toList with
  | ['-', '-'] => .separator
  | '-' :: '-' :: rest => .long rest
  | '-' :: c :: rest => .short (c :: rest)
  | _ => .plain

/-- Whether the value of a switch is expected next. -/
def Given.awaitsValue (g : Given) : Option Switch :=
  match g.pending with
  | .switch s none => some s
  | _ => none

/-- Reads the arguments behind a command.  `plain` tells that dashes mean nothing any more. -/
def readBehind (verb : Verb) : (plain : Bool) → Given → List String → Except Usage Given
  | _, g, [] => do
    let g ← g.settle
    if verb.takesFile && g.file.isNone then throw .missingFile else return g
  | plain, g, arg :: rest =>
    match if plain then .plain else formOf arg with
    | .separator => readBehind verb true g rest
    | .long cs => do
      let g ← readLong (some verb) g cs
      readBehind verb false g rest
    | .short cs => do
      let g ← readLetters g cs
      readBehind verb false g rest
    | .plain =>
      match if plain then none else g.awaitsValue with
      | some s => readBehind verb plain { g with pending := .switch s (some arg) } rest
      | none =>
        let taken := match g.pending with
          | .file _ => true
          | _ => g.file.isSome
        if verb.takesFile && !taken then do
          let g ← g.settle
          readBehind verb plain { g with pending := .file arg } rest
        else .error .unknownArgument

/-- Reads what the command that explains the others is asked about. -/
def readHelp : List String → Usage
  | [] => .help
  | [name] => if (Verb.ofName? name).isSome || name = helpName then .help else .unknownCommand
  | _ => .unknownCommand

/-- Whether an argument names a command. -/
def isCommandName (arg : String) : Bool := (Verb.ofName? arg).isSome || arg = helpName

/-- Reads all arguments.  What is given behind the command is read before the last switch in front
of it is taken up. -/
def readAll : (plain : Bool) → Given → List String → Except Usage (Verb × Given × Given)
  | _, g, [] => do
    let g ← g.settle
    throw (if g.isEmpty then .nothingGiven else .missingCommand)
  | plain, g, arg :: rest =>
    if plain then .error (if isCommandName arg then .unknownArgument else .unknownCommand)
    else match g.awaitsValue, formOf arg with
      | _, .separator => readAll true g rest
      | _, .long cs => do
        let g ← readLong none g cs
        readAll false g rest
      | _, .short cs => do
        let g ← readLetters g cs
        readAll false g rest
      | some s, .plain => readAll false { g with pending := .switch s (some arg) } rest
      | none, .plain =>
        if arg = helpName then .error (readHelp rest)
        else match Verb.ofName? arg with
          | some verb => do
            let behind ← readBehind verb false {} rest
            let front ← g.settle
            return (verb, front, behind)
          | none => .error .unknownCommand

/-- The command with what was given for it. -/
def Verb.command (verb : Verb) (g : Given) : Command :=
  let file := g.file.getD ""
  match verb with
  | .parse => .parse file
  | .validate => .validate file
  | .extract => .extract file
  | .show => .show g.builtin

end Arguments

/-- What a command line asks for. -/
def Invocation.ofArguments (args : List String) : Except Usage Invocation := do
  let (verb, front, behind) ← Arguments.readAll false {} args
  return {
    command := verb.command behind
    audience := (behind.audience.or front.audience).getD .human
    settingsFile := behind.settingsFile.or front.settingsFile }

end CommandMenu
