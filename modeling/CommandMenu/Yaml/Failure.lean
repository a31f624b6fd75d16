import CommandMenu.Number.Basic
import CommandMenu.Text.Quoted

/-! # What can be wrong with a YAML text

The causes for which a YAML text is refused, with the place of each, and their wording.

* `Yaml.Mark` is a place in a text.
* `Yaml.Problem` says what is wrong, `Yaml.Setting` in the middle of what it was noticed.
* `Yaml.Rejection` says which value of a well-formed document is not accepted, `Yaml.Route` how
  that value is reached from the root.
* `Yaml.Failure` joins them, `Yaml.Failure.message` is the wording.
-/

namespace CommandMenu.Yaml

/-- A place in a text: the number of octets, line ends and characters of the line in front. -/
structure Mark where
  index : Nat
  line : Nat
  column : Nat
deriving DecidableEq, Repr, Inhabited

namespace Mark

/-- The place in front of the first character. -/
def start : Mark := ⟨0, 0, 0⟩

/-- Whether the place is the first one of the first line, which messages do not mention. -/
def isStart (m : Mark) : Bool := m.line == 0 && m.column == 0

/-- Whether two marks are the same place for a reader. -/
def sameSpot (m n : Mark) : Bool := m.line == n.line && m.column == n.column

/-- A place in words, counted from one. -/
def render (m : Mark) : String :=
  "line " ++ toString (m.line + 1) ++ " column " ++ toString (m.column + 1)

/-- The part of a message that names a place; the start of the text is not named. -/
def mention (m : Mark) : String := if m.isStart then "" else " at " ++ m.render

end Mark

/-- What was being read when a problem showed. -/
inductive Setting where
  | nextToken
  | simpleKey
  | directive
  | versionDirective
  | tagDirective
  | tagDirectiveHandle
  | tagDirectiveName
  | tagDirectiveText
  | anchor
  | aliasName
  | tag
  | tagText
  | blockScalar
  | quotedScalar
  | quotedText
  | plainScalar
  | blockNode
  | flowNode
  | node
  | blockCollection
  | blockMapping
  | flowSequence
  | flowMapping
deriving DecidableEq, Repr

/-- The wording of a setting. -/
def Setting.text : Setting → String
  | .nextToken => "while scanning for the next token"
  | .simpleKey => "while scanning a simple key"
  | .directive => "while scanning a directive"
  | .versionDirective => "while scanning a %YAML directive"
  | .tagDirective => "while scanning a %TAG directive"
  | .tagDirectiveHandle => "while scanning a tag directive"
  | .tagDirectiveName => "while parsing a tag directive"
  | .tagDirectiveText => "while parsing a %TAG directive"
  | .anchor => "while scanning an anchor"
  | .aliasName => "while scanning an alias"
  | .tag => "while scanning a tag"
  | .tagText => "while parsing a tag"
  | .blockScalar => "while scanning a block scalar"
  | .quotedScalar => "while scanning a quoted scalar"
  | .quotedText => "while parsing a quoted scalar"
  | .plainScalar => "while scanning a plain scalar"
  | .blockNode => "while parsing a block node"
  | .flowNode => "while parsing a flow node"
  | .node => "while parsing a node"
  | .blockCollection => "while parsing a block collection"
  | .blockMapping => "while parsing a block mapping"
  | .flowSequence => "while parsing a flow sequence"
  | .flowMapping => "while parsing a flow mapping"

/-- What is wrong at a place of a text. -/
inductive Problem where
  | noToken
  | missingColon
  | entryNotAllowed
  | keyNotAllowed
  | valueNotAllowed
  | unnamedDirective
  | directiveNameEnd
  | unknownDirective
  | directiveLineEnd
  | missingVersionPoint
  | longVersion
  | missingVersion
  | missingBlank
  | missingBlankOrBreak
  | missingTagMark
  | missingTagClose
  | missingTagText
  | badTagEscape
  | badLeadingOctet
  | badTrailingOctet
  | missingName
  | zeroIndentation
  | tabInIndentation
  | tabBeforeText
  | missingLineEnd
  | documentMarkInQuotes
  | textEndInQuotes
  | unknownEscape
  | missingHexDigit
  | badCharacterNumber
  | unexpectedColon
  | missingDocumentStart
  | duplicateVersionDirective
  | duplicateTagDirective
  | incompatibleVersion
  | undefinedTagHandle
  | missingContent
  | missingDash
  | missingKey
  | missingSequenceEnd
  | missingMappingEnd
deriving DecidableEq, Repr

/-- The wording of a problem. -/
def Problem.text : Problem → String
  | .noToken => "found character that cannot start any token"
  | .missingColon => "could not find expected ':'"
  | .entryNotAllowed => "block sequence entries are not allowed in this context"
  | .keyNotAllowed => "mapping keys are not allowed in this context"
  | .valueNotAllowed => "mapping values are not allowed in this context"
  | .unnamedDirective => "could not find expected directive name"
  | .directiveNameEnd => "found unexpected non-alphabetical character"
  | .unknownDirective => "found unknown directive name"
  | .directiveLineEnd => "did not find expected comment or line break"
  | .missingVersionPoint => "did not find expected digit or '.' character"
  | .longVersion => "found extremely long version number"
  | .missingVersion => "did not find expected version number"
  | .missingBlank => "did not find expected whitespace"
  | .missingBlankOrBreak => "did not find expected whitespace or line break"
  | .missingTagMark => "did not find expected '!'"
  | .missingTagClose => "did not find the expected '>'"
  | .missingTagText => "did not find expected tag URI"
  | .badTagEscape => "did not find URI escaped octet"
  | .badLeadingOctet => "found an incorrect leading UTF-8 octet"
  | .badTrailingOctet => "found an incorrect trailing UTF-8 octet"
  | .missingName => "did not find expected alphabetic or numeric character"
  | .zeroIndentation => "found an indentation indicator equal to 0"
  | .tabInIndentation => "found a tab character where an indentation space is expected"
  | .tabBeforeText => "found a tab character that violates indentation"
  | .missingLineEnd => "did not find expected comment or line break"
  | .documentMarkInQuotes => "found unexpected document indicator"
  | .textEndInQuotes => "found unexpected end of stream"
  | .unknownEscape => "found unknown escape character"
  | .missingHexDigit => "did not find expected hexadecimal number"
  | .badCharacterNumber => "found invalid Unicode character escape code"
  | .unexpectedColon => "found unexpected ':'"
  | .missingDocumentStart => "did not find expected <document start>"
  | .duplicateVersionDirective => "found duplicate %YAML directive"
  | .duplicateTagDirective => "found duplicate %TAG directive"
  | .incompatibleVersion => "found incompatible YAML document"
  | .undefinedTagHandle => "found undefined tag handle"
  | .missingContent => "did not find expected node content"
  | .missingDash => "did not find expected '-' indicator"
  | .missingKey => "did not find expected key"
  | .missingSequenceEnd => "did not find expected ',' or ']'"
  | .missingMappingEnd => "did not find expected ',' or '\x7d'"

/-- How a value is reached from the root of a document. -/
inductive Route where
  | root
  | index (parent : Route) (number : Nat)
  | key (parent : Route) (name : String)
  | unnamed (parent : Route)
deriving DecidableEq, Repr

namespace Route

mutual

/-- A route in words; the root alone is a point. -/
def render : Route → String
  | .root => "."
  | .index parent number => parent.render ++ "[" ++ toString number ++ "]"
  | .key parent name => parent.lead ++ name
  | .unnamed parent => parent.lead ++ "?"

/-- A route in front of a key. -/
def lead : Route → String
  | .root => ""
  | .index parent number => parent.render ++ "[" ++ toString number ++ "]."
  | .key parent name => parent.lead ++ name ++ "."
  | .unnamed parent => parent.lead ++ "?."

end

end Route

/-- The kind of value that a tag asks for. -/
inductive Wanted where
  | boolean
  | integer
  | float
  | null
deriving DecidableEq, Repr

/-- The wording of a kind of value. -/
def Wanted.text : Wanted → String
  | .boolean => "a boolean"
  | .integer => "an integer"
  | .float => "a float"
  | .null => "null"

/-- How a repeated key is named in a message. -/
inductive KeyName where
  | null
  | bool (value : Bool)
  | number (value : Number)
  | string (value : String)
  | other
deriving DecidableEq, Repr

/-- The wording for a repeated key. -/
def KeyName.text : KeyName → String
  | .null => "with null key"
  | .bool b => "with key `" ++ (if b then "true" else "false") ++ "`"
  | .number n => "with key " ++ n.render
  | .string s => "with key " ++ Text.quote s
  | .other => "in YAML map"

/-- Why a value of a well-formed document is not accepted. -/
inductive Rejection where
  | duplicateKey (key : KeyName)
  | wrongText (text : String) (wanted : Wanted)
  | hugeInteger (value : Int)
deriving DecidableEq, Repr

/-- The wording of a rejection. -/
def Rejection.text : Rejection → String
  | .duplicateKey key => "duplicate entry " ++ key.text
  | .wrongText text wanted =>
    "invalid value: string " ++ Text.quote text ++ ", expected " ++ wanted.text
  | .hugeInteger i =>
    "invalid type: integer `" ++ toString i ++ "` as " ++ (if i < 0 then "i128" else "u128") ++
      ", expected any YAML value"

/-- Why a text is not read as one YAML value. -/
inductive Failure where
  | forbiddenCharacter (offset : Nat)
  | malformed (problem : Problem) (spot : Mark) (setting : Option (Setting × Mark))
  | unknownAnchor (spot : Mark)
  | rejected (cause : Rejection) (route : Route) (spot : Mark)
  | tooDeep (spot : Mark)
  | tooManyRepetitions
  | severalDocuments
  | noDocument
deriving DecidableEq, Repr

/-- The wording of a failure.  A setting's place is named only where it differs from the place of
the problem. -/
def Failure.message : Failure → String
  | .forbiddenCharacter offset =>
    "control characters are not allowed" ++
      (if offset = 0 then "" else " at position " ++ toString offset)
  | .malformed problem spot setting =>
    problem.text ++ spot.mention ++
      match setting with
      | none => ""
      | some (s, m) => ", " ++ s.text ++ (if m.sameSpot spot then "" else m.mention)
  | .unknownAnchor spot => "unknown anchor" ++ spot.mention
  | .rejected cause route spot =>
    (if route.render == "." then "" else route.render ++ ": ") ++ cause.text ++ spot.mention
  | .tooDeep spot => "recursion limit exceeded" ++ spot.mention
  | .tooManyRepetitions => "repetition limit exceeded"
  | .severalDocuments =>
    "deserializing from YAML containing more than one document is not supported"
  | .noDocument => "EOF while parsing a value"

end CommandMenu.Yaml
