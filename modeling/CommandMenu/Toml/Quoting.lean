/-! # Quotes of a TOML text

A text stands between quotes of one of four kinds: literal or basic, on one line or on several.

* `Quoting` is the kind, `Quoting.mark` its quote, `Quoting.quotes` what stands on either side.
* `Quoting.name` is the name of a text between such quotes.
-/

namespace CommandMenu.Toml

/-- How a text is quoted. -/
inductive Quoting where
  | literal
  | basic
  | longLiteral
  | longBasic
deriving DecidableEq, Repr, Inhabited

namespace Quoting

/-- Whether the text may run over several lines. -/
def isLong (q : Quoting) : Bool := q = .longLiteral || q = .longBasic

/-- Whether a backslash has a meaning in the text. -/
def isBasic (q : Quoting) : Bool := q = .basic || q = .longBasic

/-- The quote. -/
def mark (q : Quoting) : Char := if q.isBasic then '"' else '\''

/-- The quotes on either side. -/
def quotes (q : Quoting) : List Char := List.replicate (if q.isLong then 3 else 1) q.mark

/-- The name of a text between the quotes. -/
def name (q : Quoting) : String :=
  (if q.isLong then "multi-line " else "") ++ (if q.isBasic then "basic" else "literal") ++
    " string"

/-- The quotes at the end of some characters, the longer ones first. -/
def atEnd? (cs : List Char) : Option Quoting :=
  [longLiteral, longBasic, literal, basic].find? fun q => q.quotes.isSuffixOf cs

end Quoting
end CommandMenu.Toml
