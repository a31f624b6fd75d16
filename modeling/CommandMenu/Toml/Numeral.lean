import CommandMenu.Number.Basic
import CommandMenu.Text.Digits
import CommandMenu.Toml.Failure
import CommandMenu.Toml.Scalar

/-! # Numbers of a TOML text

A number is a whole number, in decimal digits or in another base, or a floating point number.
Underscores may stand between its digits.

* `Numeral.integer` reads a decimal whole number, `Numeral.ofBase` one in another base.
* `Numeral.float` reads a floating point number.

They are given the whole word and, as another excerpt of the text, what is behind its sign or behind
the letter of a base.
-/

namespace CommandMenu.Toml.Numeral

/-! ### Underscores -/

/-- The place of an underscore at an end of a part between underscores, if what stands there is no
digit.  The ends of the word do not count. -/
def underscoreAround? (isDigit : Char → Bool) (word part : Excerpt) : Option Span :=
  let front := part.span.start
  let behind := part.span.stop
  if word.span.start < front && part.text.head?.any (!isDigit ·) then some ⟨front - 1, front⟩
  else if 1 < part.text.length && behind < word.span.stop &&
      part.text.getLast?.any (!isDigit ·) then
    some ⟨behind, behind + 1⟩
  else if part.isEmpty && front ≠ word.span.start && behind ≠ word.span.stop then
    some ⟨front - 1, front⟩
  else none

/-- The first underscore that does not stand between digits. -/
def misplacedUnderscore? (isDigit : Char → Bool) (word digits : Excerpt) : Option Span :=
  if digits.text.head? = some '_' then some (digits.span.first 1)
  else if digits.text.getLast? = some '_' then some ⟨digits.span.stop - 1, digits.span.stop⟩
  else (digits.split '_').findSome? (underscoreAround? isDigit word)

/-- The characters of a number without the underscores. -/
def withoutUnderscores (isDigit : Char → Bool) (word digits : Excerpt) :
    Except Failure (List Char) :=
  match misplacedUnderscore? isDigit word digits with
  | some span => refuse .misplacedUnderscore span
  | none => .ok (digits.text.filter (· != '_'))

/-- A digit of a number, or an underscore. -/
def isDigitOrMark (c : Char) : Bool := c.isDigit || c == '_'

/-! ### Whole numbers -/

/-- A whole number of at most 128 bits. -/
def bounded (i : Int) : Scalar := .integer (if Number.isDoubleWord i then some i else none)

/-- The value of decimal digits with an optional sign. -/
def signed : List Char → Int
  | '-' :: ds => -(Text.numberOf 10 ds : Int)
  | '+' :: ds => Text.numberOf 10 ds
  | ds => Text.numberOf 10 ds

/-- Reads a whole number in decimal digits. -/
def integer (word : Excerpt) : Except Failure Scalar := do
  let digits ← withoutUnderscores (Text.isDigitOf 16) word word
  return bounded (signed digits)

/-- Reads the digits of a whole number behind the letter of its base.  A number without digits has
no value. -/
def ofBase (base : Base) (word digits : Excerpt) : Except Failure Scalar :=
  let bad := digits.skip fun c => Text.isDigitOf base.size c || c == '_'
  match digits.text with
  | '+' :: _ | '-' :: _ => refuse .signBehindBase (digits.span.first 1)
  | [] => .ok (.integer none)
  | _ :: _ =>
    if !bad.isEmpty then refuse (.badDigit base) bad.span.before
    else do
      let digits ← withoutUnderscores (Text.isDigitOf 16) word digits
      return bounded (Text.numberOf base.size digits)

/-! ### Floating point numbers -/

/-- Moves over digits, of which there must be one.  In front of a point, the first one must not be a
redundant zero. -/
def skipDigits (part : String) (whole : Bool) (e : Excerpt) : Except Failure Excerpt :=
  let digits := (e.text.takeWhile isDigitOrMark).filter Char.isDigit
  if digits.isEmpty then refuse (.missingDigits part) e.span.before
  else if whole && 1 < digits.length && e.text.head? = some '0' then
    refuse .leadingZero (e.span.first 1)
  else .ok (e.skip isDigitOrMark)

/-- Moves over a point and the digits behind it, if there is one. -/
def skipFraction (e : Excerpt) : Except Failure Excerpt :=
  match e.text with
  | '.' :: _ => skipDigits "fraction" false (e.drop 1)
  | _ => .ok e

/-- Moves over an exponent, if there is one. -/
def skipExponent (e : Excerpt) : Except Failure Excerpt :=
  match e.text with
  | 'e' :: '+' :: _ | 'e' :: '-' :: _ | 'E' :: '+' :: _ | 'E' :: '-' :: _ =>
    skipDigits "exponent" false (e.drop 2)
  | 'e' :: _ | 'E' :: _ => skipDigits "exponent" false (e.drop 1)
  | _ => .ok e

/-- Reads a floating point number; `unsigned` is what is behind its sign. -/
def float (word unsigned : Excerpt) : Except Failure Scalar := do
  let rest ← skipExponent (← skipFraction (← skipDigits "mantissa" true unsigned))
  if !rest.isEmpty then refuse .badFloat rest.span
  else
    let digits ← withoutUnderscores Char.isDigit word word
    return .real ((Binary64.readDecimal digits).filter Binary64.isFinite)

end CommandMenu.Toml.Numeral
