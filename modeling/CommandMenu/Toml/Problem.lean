import CommandMenu.Toml.Moment
import CommandMenu.Toml.Quoting

/-! # What can be wrong with a TOML text

* `Base` is a base of whole numbers other than ten, `EntryPart` a part of an entry in braces.
* `Problem` says what is wrong, and `Problem.text` is the wording, which mostly ends with what was
  expected instead.
-/

namespace CommandMenu.Toml

/-! ### Bases -/

/-- A base of whole numbers other than ten. -/
inductive Base where
  | hexadecimal
  | octal
  | binary
deriving DecidableEq, Repr

namespace Base

/-- The number of digits of a base. -/
def size : Base → Nat
  | .hexadecimal => 16
  | .octal => 8
  | .binary => 2

/-- The letter of a base, which stands behind a zero. -/
def letter : Base → Char
  | .hexadecimal => 'x'
  | .octal => 'o'
  | .binary => 'b'

/-- The base with a letter, in either case. -/
def ofLetter? (c : Char) : Option Base :=
  [hexadecimal, octal, binary].find? fun b => b.letter = c.toLower

/-- The name of a base. -/
def name : Base → String
  | .hexadecimal => "hexadecimal"
  | .octal => "octal"
  | .binary => "binary"

end Base

/-! ### Entries in braces -/

/-- A part of an entry in braces, or what separates two entries. -/
inductive EntryPart where
  | key
  | equals
  | value
  | comma
deriving DecidableEq, Repr

/-- How a part is named where it is expected. -/
def EntryPart.wanted : EntryPart → String
  | .key => "key"
  | .equals => "`=`"
  | .value => "value"
  | .comma => "`,`"

/-- What is wrong between the entries in braces. -/
inductive EntryProblem where
  | extraComma
  | extraEquals
  | missingKey
  | missingEquals
  | missingComma
  | misplacedBracket
deriving DecidableEq, Repr

/-- The wording of a problem between entries. -/
def EntryProblem.text : EntryProblem → String
  | .extraComma => "extra comma in inline table"
  | .extraEquals => "extra assignment between key-value pairs"
  | .missingKey => "missing key for inline table element"
  | .missingEquals => "missing assignment between key-value pairs"
  | .missingComma => "missing comma between key-value pairs"
  | .misplacedBracket => "invalid inline table element"

/-! ### Problems -/

/-- What is wrong with a text. -/
inductive Problem where
  | loneReturn
  | badComment
  | unexpectedText
  | missingTableStart
  | unclosedTable
  | unclosedTableOfList
  | halfClosedTableOfList
  | missingKey
  | keyWithoutValue
  | missingValue
  | extraEquals
  | missingListStart
  | unclosedList
  | extraCommaInList
  | missingCommaInList
  | equalsInList
  | missingInlineStart
  | unclosedInline
  | entry (problem : EntryProblem) (wanted : EntryPart)
  | deepNesting
  | longPath
  | emptyKey
  | badKey
  | longKey (quoting : Quoting)
  | unclosedText (quoting : Quoting)
  | badCharacter (quoting : Quoting)
  | badEscape
  | shortCodePoint
  | badCodePoint
  | missingHiddenLineEnd
  | unquotedText
  | missingQuote (quoting : Quoting)
  | badWord (kind word : String)
  | badMoment (defect : Moment.Defect)
  | leadingZero
  | misplacedUnderscore
  | redundantSign
  | signedBase
  | redundantBase
  | largeBaseLetter (base : Base)
  | signBehindBase
  | badDigit (base : Base)
  | missingDigits (part : String)
  | badFloat
  | hugeInteger
  | hugeFloat
  | duplicateKey
  | extended (kind : String)
  | wrongKind (found wanted : String)
deriving DecidableEq, Repr

/-- What is expected in place of a character that may not stand between quotes. -/
def Quoting.characters : Quoting → String
  | .literal => "non-single-quote visible characters"
  | .basic => "non-double-quote visible characters, `\\`"
  | .longLiteral => "non-single-quote characters"
  | .longBasic => "`\\`, characters"

/-- The wording of a problem. -/
def Problem.text : Problem → String
  | .loneReturn => "carriage return must be followed by newline, expected newline"
  | .badComment => "invalid comment character, expected printable characters"
  | .unexpectedText => "unexpected key or value, expected newline, `#`"
  | .missingTableStart => "missing table open, expected `[`"
  | .unclosedTable => "unclosed table, expected `]`"
  | .unclosedTableOfList => "unclosed array table, expected `]]`"
  | .halfClosedTableOfList => "unclosed array table, expected `]`"
  | .missingKey => "missing key, expected key"
  | .keyWithoutValue => "key with no value, expected `=`"
  | .missingValue => "missing value for key, expected `=`"
  | .extraEquals => "extra `=`, expected nothing"
  | .missingListStart => "missing array opening, expected `[`"
  | .unclosedList => "unclosed array, expected `]`"
  | .extraCommaInList => "extra comma in array, expected value"
  | .missingCommaInList => "missing comma between array elements, expected `,`"
  | .equalsInList => "unexpected `=` in array, expected value, `]`"
  | .missingInlineStart => "missing inline table opening, expected `\x7b`"
  | .unclosedInline => "unclosed inline table, expected `\x7d`"
  | .entry problem wanted => problem.text ++ ", expected " ++ wanted.wanted
  | .deepNesting => "cannot recurse further; max recursion depth met"
  | .longPath => "recursion limit"
  | .emptyKey => "unquoted keys cannot be empty, expected letters, numbers, `-`, `_`"
  | .badKey => "invalid unquoted key, expected letters, numbers, `-`, `_`"
  | .longKey quoting =>
    "keys cannot be " ++ quoting.name ++ "s, expected basic string, literal string"
  | .unclosedText quoting =>
    "invalid " ++ quoting.name ++ ", expected `" ++ String.singleton quoting.mark ++ "`"
  | .badCharacter quoting => "invalid " ++ quoting.name ++ ", expected " ++ quoting.characters
  | .badEscape =>
    "missing escaped value, expected `b`, `e`, `f`, `n`, `r`, `\\`, `\"`, `x`, `u`, `U`"
  | .shortCodePoint => "too few unicode value digits, expected unicode hexadecimal value"
  | .badCodePoint => "invalid value, expected unicode hexadecimal value"
  | .missingHiddenLineEnd => "invalid multi-line basic string, expected newline"
  | .unquotedText => "string values must be quoted, expected literal string"
  | .missingQuote quoting =>
    "missing opening quote, expected `" ++ String.ofList quoting.quotes ++ "`"
  | .badWord kind word => "invalid " ++ kind ++ ", expected `" ++ word ++ "`"
  | .badMoment defect => defect.text
  | .leadingZero => "unexpected leading zero, expected nothing"
  | .misplacedUnderscore => "`_` may only go between digits, expected nothing"
  | .redundantSign => "redundant numeric sign, expected nothing"
  | .signedBase => "integers with a radix cannot be signed, expected nothing"
  | .redundantBase => "redundant integer number prefix, expected nothing"
  | .largeBaseLetter base =>
    "radix must be lowercase, expected `0" ++ String.singleton base.letter ++ "`"
  | .signBehindBase => "unexpected sign, expected nothing"
  | .badDigit base => "invalid " ++ base.name ++ " number"
  | .missingDigits part => "invalid " ++ part ++ ", expected digits"
  | .badFloat => "invalid float, expected nothing"
  | .hugeInteger => "integer number overflowed"
  | .hugeFloat => "floating-point number overflowed"
  | .duplicateKey => "duplicate key"
  | .extended kind => "cannot extend value of type " ++ kind ++ " with a dotted key"
  | .wrongKind found wanted => "invalid type: " ++ found ++ ", expected " ++ wanted

end CommandMenu.Toml
