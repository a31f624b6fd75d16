import CommandMenu.Yaml.Failure
import CommandMenu.Yaml.Tag

/-! # YAML tokens

The signs of a YAML text: indicators, directives, properties of nodes and scalars.  Indentation
shows as tokens of its own, which open and close block collections.
-/

namespace CommandMenu.Yaml

/-- A token of a YAML text. -/
inductive Token where
  | streamEnd
  | versionDirective (major minor : Nat)
  | tagDirective (handle : String) (lead : Tag)
  | documentStart
  | documentEnd
  | blockSequenceStart
  | blockMappingStart
  | blockEnd
  | flowSequenceStart
  | flowSequenceEnd
  | flowMappingStart
  | flowMappingEnd
  | blockEntry
  | flowEntry
  | key
  | value
  | alias (name : String)
  | anchor (name : String)
  | tag (handle : String) (suffix : Tag)
  | scalar (text : String) (plain : Bool)
deriving DecidableEq, Repr

/-- A token with the marks of its first character and of what follows it. -/
structure Placed where
  token : Token
  start : Mark
  stop : Mark
deriving Repr

end CommandMenu.Yaml
