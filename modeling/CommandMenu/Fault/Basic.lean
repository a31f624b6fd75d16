import CommandMenu.Fault.Code
import CommandMenu.Fault.Reading
import CommandMenu.Json.Failure
import CommandMenu.Json.Value
import CommandMenu.Text.Quoted
import CommandMenu.Yaml.Failure

/-! # Faults

Why a request on a menu fails.  A fault of structure names the place in the document where it was
met; no part of a menu is handed out then.

* `Fault` is the cause, `Fault.message` its wording, `Fault.code` its kind.
* `Fault.details` are the data of a fault of structure, as one JSON object.
* `Fault.Report` is a fault as programs read it.
-/

namespace CommandMenu

/-- Why a request fails. -/
inductive Fault where
  | unreadable (cause : ReadFailure)
  | yaml (failure : Yaml.Failure)
  | json (failure : Json.Failure)
  | settings (text : String)
  | malformedDocument (found : String)
  | unnamedGroup (path : String)
  | missingId (path : String)
  | ambiguousEntry (path key : String)
  | unknownText (path value : String)
  | unusableKey (path : String)
deriving DecidableEq, Repr

namespace Fault

/-- The wording of a fault. -/
def message : Fault → String
  | .unreadable cause => "IO error: " ++ cause.message
  | .yaml failure => "YAML syntax error: " ++ failure.message
  | .json failure => "JSON serialization error: " ++ failure.message
  | .settings text => "Config error: " ++ text
  | .malformedDocument found =>
    "Malformed document: expected a list or a map with `items` at the root, found " ++ found
  | .unnamedGroup path => "Group at `" ++ path ++ "` has no name"
  | .missingId path => "Action at `" ++ path ++ "` has no id"
  | .ambiguousEntry path key => "Failed to handle tuple-object `" ++ key ++ "` at `" ++ path ++ "`"
  | .unknownText path value => "Unknown string item at `" ++ path ++ "`: " ++ Text.quote value
  | .unusableKey path => "Unsupported map key at `" ++ path ++ "`: keys must be scalars"

/-- The kind of a fault. -/
def code : Fault → Code
  | .unreadable _ => .sourceReadError
  | .yaml _ => .yamlSyntax
  | .json _ => .serializationError
  | .settings _ => .configInvalid
  | .malformedDocument _ => .malformedDocument
  | .unnamedGroup _ => .missingGroupName
  | .missingId _ => .missingActionId
  | .ambiguousEntry _ _ => .ambiguousTupleObject
  | .unknownText _ _ => .unknownStringFormat
  | .unusableKey _ => .unsupportedKey

/-- Whether a well-formed document has the wrong structure. -/
def isStructural : Fault → Bool
  | .unreadable _ | .yaml _ | .json _ | .settings _ => false
  | _ => true

/-- The data of a fault of structure, in the order of their names. -/
def details : Fault → Option Json.Value
  | .malformedDocument found => some (.object [("found", .string found)])
  | .unnamedGroup path | .missingId path | .unusableKey path =>
    some (.object [("path", .string path)])
  | .ambiguousEntry path key => some (.object [("key", .string key), ("path", .string path)])
  | .unknownText path value => some (.object [("path", .string path), ("value", .string value)])
  | .unreadable _ | .yaml _ | .json _ | .settings _ => none

/-! ### Reports -/

/-- A fault as programs read it. -/
structure Report where
  code : Code
  number : Nat
  message : String
  suggestion : String
  context : Option Json.Value := none
  recoverable : Bool
  category : String
deriving Repr

/-- The report of a fault. -/
def report (f : Fault) : Report where
  code := f.code
  number := f.code.number
  message := f.message
  suggestion := f.code.advice
  context := f.details
  recoverable := f.code.recoverable
  category := f.code.area

/-- A report in one line. -/
def Report.display (r : Report) : String := "[" ++ r.code.label ++ "] " ++ r.message

end Fault
end CommandMenu
