/-! # Codes of faults

Every fault has a code for programs that read the output.  The hundreds of its number name the area
the fault comes from: documents, sources, settings, or the program itself.

* `Code.number`, `Code.label` and `Code.name` are three spellings of a code.
* `Code.advice` says what a user can do, `Code.recoverable` whether there is anything to do.
-/

namespace CommandMenu

/-- What kind of fault a request met. -/
inductive Code where
  | malformedDocument
  | missingGroupName
  | missingActionId
  | ambiguousTupleObject
  | unknownStringFormat
  | unsupportedKey
  | yamlSyntax
  | sourceReadError
  | configInvalid
  | serializationError
deriving DecidableEq, Repr, Inhabited

namespace Code

/-- All codes, in the order of their numbers. -/
def all : List Code :=
  [.malformedDocument, .missingGroupName, .missingActionId, .ambiguousTupleObject,
    .unknownStringFormat, .unsupportedKey, .yamlSyntax, .sourceReadError, .configInvalid,
    .serializationError]

/-- The number of a code. -/
def number : Code → Nat
  | .malformedDocument => 101
  | .missingGroupName => 102
  | .missingActionId => 103
  | .ambiguousTupleObject => 104
  | .unknownStringFormat => 105
  | .unsupportedKey => 106
  | .yamlSyntax => 107
  | .sourceReadError => 201
  | .configInvalid => 301
  | .serializationError => 901

/-- The number behind a letter, as messages show it. -/
def label (c : Code) : String := "E" ++ toString c.number

/-- The name of a code in structured output. -/
def name : Code → String
  | .malformedDocument => "MALFORMED_DOCUMENT"
  | .missingGroupName => "MISSING_GROUP_NAME"
  | .missingActionId => "MISSING_ACTION_ID"
  | .ambiguousTupleObject => "AMBIGUOUS_TUPLE_OBJECT"
  | .unknownStringFormat => "UNKNOWN_STRING_FORMAT"
  | .unsupportedKey => "UNSUPPORTED_KEY"
  | .yamlSyntax => "YAML_SYNTAX"
  | .sourceReadError => "SOURCE_READ_ERROR"
  | .configInvalid => "CONFIG_INVALID"
  | .serializationError => "SERIALIZATION_ERROR"

/-- The code with a name. -/
def ofName? (s : String) : Option Code := all.find? fun c => c.name == s

/-- What a user can do about a fault. -/
def advice : Code → String
  | .malformedDocument =>
    "Start the document with a list of items, or a map with an `items` list"
  | .missingGroupName => "Give the group a `name`, or nest it under a key (`Name: [...]`)"
  | .missingActionId =>
    "Add an `id` (or legacy `command`) field holding a command id such as `editor:focus`"
  | .ambiguousTupleObject =>
    "Use `key: command:id`, `Name: [items]`, or a map with `id` or `items` under the key"
  | .unknownStringFormat => "Write string items as `namespace:command Optional display name`"
  | .unsupportedKey => "Use plain strings or numbers as map keys"
  | .yamlSyntax => "Fix the YAML syntax at the reported line and column"
  | .sourceReadError => "Check the configuration path exists and is readable"
  | .configInvalid =>
    "Check TOML syntax in the settings file and the RADIAL_* environment variables"
  | .serializationError =>
    "Output could not be encoded. Please report this issue with the input file"

/-- Whether a user can mend the fault. -/
def recoverable : Code → Bool
  | .serializationError => false
  | _ => true

/-- The area that a fault comes from. -/
def area (c : Code) : String :=
  match c.number / 100 with
  | 1 => "document"
  | 2 => "source"
  | 3 => "config"
  | 9 => "internal"
  | _ => "unknown"

end Code
end CommandMenu
