import CommandMenu.Text.Digits
import CommandMenu.Yaml.Failure
import CommandMenu.Yaml.Value

/-! # The meaning of YAML scalars

A plain scalar is null, a boolean or a number if it is spelled like one, and a text otherwise.

* `isNullText`, `boolOfText?`, `integerOfText?` and `floatOfText?` recognise the spellings.
* `plainValue` is the value of a plain scalar, `taggedValue` that of a scalar with a tag.

Whole numbers have at most 64 bits.  One that needs up to 128 bits is refused, and a longer one in
decimal digits is a floating point number.
-/

namespace CommandMenu.Yaml

/-- The spellings of null other than the empty text. -/
def isNullText (text : String) : Bool :=
  text == "null" || text == "Null" || text == "NULL" || text == "~"

/-- The spellings of the booleans. -/
def boolOfText? : String → Option Bool
  | "true" | "True" | "TRUE" => some true
  | "false" | "False" | "FALSE" => some false
  | _ => none

/-- The number written in digits of a base; there must be a digit. -/
def digitsOfBase? (base : Nat) (cs : List Char) : Option Nat :=
  if cs.isEmpty then none else Text.numberOf? base cs

/-- Whether a text is a redundant zero with digits behind it, apart from a sign. -/
def hasLeadingZero : List Char → Bool
  | '-' :: '0' :: rest => !rest.isEmpty && rest.all Char.isDigit
  | '+' :: '0' :: rest => !rest.isEmpty && rest.all Char.isDigit
  | '0' :: rest => !rest.isEmpty && rest.all Char.isDigit
  | _ => false

/-- The magnitude of a whole number without sign: hexadecimal, octal, binary or decimal. -/
def magnitude? : List Char → Option Nat
  | '0' :: 'x' :: rest => digitsOfBase? 16 rest
  | '0' :: 'o' :: rest => digitsOfBase? 8 rest
  | '0' :: 'b' :: rest => digitsOfBase? 2 rest
  | cs => digitsOfBase? 10 cs

/-- A whole number with an optional sign. -/
def wholeNumber? (cs : List Char) : Option Int :=
  if hasLeadingZero cs then none
  else match cs with
    | '-' :: rest => (magnitude? rest).map fun n => -(n : Int)
    | '+' :: rest => (magnitude? rest).map fun n => (n : Int)
    | _ => (magnitude? cs).map fun n => (n : Int)

/-- The whole number that a text spells. -/
inductive IntegerReading where
  | none
  | fits (value : Int)
  | huge (value : Int)
deriving DecidableEq

/-- Reads a whole number.  Up to 64 bits are kept, up to 128 bits are too many. -/
def integerOfText? (text : String) : IntegerReading :=
  match wholeNumber? text.toList with
  | some i =>
    if Number.isWord i then .fits i
    else if Number.isDoubleWord i then .huge i
    else .none
  | none => .none

/-- Reads a floating point number: a decimal numeral in range, an infinity, or `.nan`. -/
def floatOfText? (text : String) : Option Binary64 :=
  let unsigned := match text.toList with
    | '+' :: '+' :: _ | '+' :: '-' :: _ => none
    | '+' :: rest => some rest
    | cs => some cs
  match unsigned with
  | none => none
  | some cs =>
    let word := String.ofList cs
    if word == ".inf" || word == ".Inf" || word == ".INF" then some (.infinite false)
    else if text == "-.inf" || text == "-.Inf" || text == "-.INF" then some (.infinite true)
    else if text == ".nan" || text == ".NaN" || text == ".NAN" then some .notANumber
    else (Binary64.readDecimal cs).filter Binary64.isFinite

/-- The value of a plain scalar. -/
def plainValue (text : String) : Except Rejection Value :=
  if text.isEmpty || isNullText text then .ok .null
  else match boolOfText? text with
    | some b => .ok (.bool b)
    | none =>
      match integerOfText? text with
      | .fits i => .ok (.number (.integer i))
      | .huge i => .error (.hugeInteger i)
      | .none =>
        if hasLeadingZero text.toList then .ok (.string text)
        else match floatOfText? text with
          | some x => .ok (.number (.real x))
          | none => .ok (.string text)

/-- The value of a scalar without a tag. -/
def untaggedValue (text : String) (plain : Bool) : Except Rejection Value :=
  if plain then plainValue text else .ok (.string text)

/-- The tags of the standard scalars. -/
def standardTag (name : String) : Tag := .ofString ("tag:yaml.org,2002:" ++ name)

/-- The value of a scalar with a tag.  The tags for booleans, numbers and null ask for a fitting
text.  A tag with an exclamation mark in front says nothing; any other one makes a text. -/
def taggedValue (tag : Tag) (text : String) (plain : Bool) : Except Rejection Value :=
  if tag == standardTag "bool" then
    match boolOfText? text with
    | some b => .ok (.bool b)
    | none => .error (.wrongText text .boolean)
  else if tag == standardTag "int" then
    match integerOfText? text with
    | .fits i => .ok (.number (.integer i))
    | .huge i => .error (.hugeInteger i)
    | .none => .error (.wrongText text .integer)
  else if tag == standardTag "float" then
    match floatOfText? text with
    | some x => .ok (.number (.real x))
    | none => .error (.wrongText text .float)
  else if tag == standardTag "null" then
    if isNullText text then .ok .null else .error (.wrongText text .null)
  else if tag.hasMark then untaggedValue text plain
  else .ok (.string text)

end CommandMenu.Yaml
