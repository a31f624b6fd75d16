/-! # What can be wrong with a JSON text

* `Json.Cause` says what is wrong, `Json.Failure` adds the place: the line, counted from one, and
  the number of octets of that line up to the fault.
* `Json.Failure.message` is the wording.
-/

namespace CommandMenu.Json

/-- What is wrong with a JSON text. -/
inductive Cause where
  | endInArray
  | endInObject
  | endInString
  | endInValue
  | missingColon
  | missingArrayEnd
  | missingObjectEnd
  | badWord
  | missingValue
  | badEscape
  | badNumber
  | hugeNumber
  | controlCharacter
  | keyNotString
  | loneSurrogate
  | endOfHexEscape
  | trailingComma
  | trailingText
  | tooDeep
deriving DecidableEq, Repr

/-- The wording of a cause. -/
def Cause.text : Cause → String
  | .endInArray => "EOF while parsing a list"
  | .endInObject => "EOF while parsing an object"
  | .endInString => "EOF while parsing a string"
  | .endInValue => "EOF while parsing a value"
  | .missingColon => "expected `:`"
  | .missingArrayEnd => "expected `,` or `]`"
  | .missingObjectEnd => "expected `,` or `\x7d`"
  | .badWord => "expected ident"
  | .missingValue => "expected value"
  | .badEscape => "invalid escape"
  | .badNumber => "invalid number"
  | .hugeNumber => "number out of range"
  | .controlCharacter => "control character (\\u0000-\\u001F) found while parsing a string"
  | .keyNotString => "key must be a string"
  | .loneSurrogate => "lone leading surrogate in hex escape"
  | .endOfHexEscape => "unexpected end of hex escape"
  | .trailingComma => "trailing comma"
  | .trailingText => "trailing characters"
  | .tooDeep => "recursion limit exceeded"

/-- A fault of a JSON text with its place. -/
structure Failure where
  cause : Cause
  line : Nat
  column : Nat
deriving DecidableEq, Repr

/-- The wording of a failure. -/
def Failure.message (f : Failure) : String :=
  f.cause.text ++ " at line " ++ toString f.line ++ " column " ++ toString f.column

end CommandMenu.Json
