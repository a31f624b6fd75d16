import CommandMenu.Toml.Numeral
import CommandMenu.Toml.Quoted

/-! # What words denote

A word denotes a truth value, a number, or a point of time.  Its first characters decide what it was
meant to be, and it is refused if it is misspelled.  Any other word was meant to be a text, and is
refused because it has no quotes.

* `Word.scalar` is what a word denotes, `Atom.scalar` what a word or a quoted text denotes.
* `Atom.name` is the name that they are as a key.
-/

namespace CommandMenu.Toml

namespace Word

/-- Refuses a word that was meant to be a text. -/
def refuseText {α : Type} (word : Excerpt) : Except Failure α :=
  match Quoting.atEnd? word.text with
  | some q => refuse (.missingQuote q) word.span.before
  | none => refuse .unquotedText word.span

/-- Reads a word with one spelling; it has no blanks. -/
def known (kind spelling : String) (value : Scalar) (word : Excerpt) : Except Failure Scalar :=
  if word.text = spelling.toList then .ok value
  else if word.contains ' ' then refuseText word
  else refuse (.badWord kind spelling) word.span

/-- Reads a floating point number that is written as a word, behind its sign. -/
def special (spelling : String) (value : Binary64) (unsigned : Excerpt) : Except Failure Scalar :=
  if unsigned.text = spelling.toList then .ok (.real (some value))
  else refuse (.badWord "float" spelling) unsigned.span

/-- Reads a point of time. -/
def moment (word : Excerpt) : Except Failure Scalar :=
  match Moment.check word.text with
  | .ok _ => .ok .moment
  | .error defect => refuse (.badMoment defect) word.span

/-- Reads a number or a point of time; `unsigned` is what is behind the sign of the word. -/
def decimal (word unsigned : Excerpt) : Except Failure Scalar :=
  let rest := unsigned.skip Numeral.isDigitOrMark
  match rest.text with
  | [] =>
    if 1 < unsigned.text.length && unsigned.text.head? = some '0' then
      refuse .leadingZero (unsigned.span.first 1)
    else Numeral.integer word
  | '-' :: _ | ':' :: _ => moment word
  | _ :: _ =>
    if rest.contains ' ' then refuseText word
    else if rest.text.any fun c => c == '.' || c == 'e' || c == 'E' then
      Numeral.float word unsigned
    else refuseText word

/-- Reads a number or a point of time that starts with a zero, behind which the letter of a base may
stand. -/
def zero (isSigned : Bool) (word unsigned : Excerpt) : Except Failure Scalar :=
  let based (read : Except Failure Scalar) : Except Failure Scalar :=
    if unsigned.contains ' ' then refuseText word
    else if isSigned then refuse .signedBase (word.span.first 1)
    else read
  match unsigned.text with
  | _ :: letter :: _ =>
    if letter.toLower = 'd' then based (refuse .redundantBase (unsigned.span.first 2))
    else match Base.ofLetter? letter with
      | some base => based <|
        if letter ≠ base.letter then refuse (.largeBaseLetter base) (unsigned.span.first 2)
        else Numeral.ofBase base word (unsigned.drop 2)
      | none => decimal word unsigned
  | _ => Numeral.integer word

/-- Reads a number behind its sign. -/
def signed (negative : Bool) (word unsigned : Excerpt) : Except Failure Scalar :=
  match unsigned.text with
  | c :: _ =>
    if c == '+' || c == '-' then refuse .redundantSign (unsigned.span.first 1)
    else if c == '0' then zero true word unsigned
    else if c == '.' then Numeral.float word unsigned
    else if Numeral.isDigitOrMark c then decimal word unsigned
    else if c == 'i' || c == 'I' then special "inf" (.infinite negative) unsigned
    else if c == 'n' || c == 'N' then special "nan" .notANumber unsigned
    else refuseText word
  | [] => refuseText word

/-- What a word denotes. -/
def scalar (word : Excerpt) : Except Failure Scalar :=
  match word.text with
  | c :: _ =>
    if c == '+' || c == '-' then signed (c == '-') word (word.drop 1)
    else if c == '0' then zero false word word
    else if c == '.' then Numeral.float word word
    else if Numeral.isDigitOrMark c then decimal word word
    else if c == 't' || c == 'T' then known "boolean" "true" (.boolean true) word
    else if c == 'f' || c == 'F' then known "boolean" "false" (.boolean false) word
    else if c == 'i' || c == 'I' then known "float" "inf" (.real (some (.infinite false))) word
    else if c == 'n' || c == 'N' then known "float" "nan" (.real (some .notANumber)) word
    else refuseText word
  | [] => refuseText word

end Word

/-- What a word or a quoted text denotes. -/
def Atom.scalar (a : Atom) : Except Failure Scalar :=
  match a.quoting with
  | some q => (q.decode a.toExcerpt).map .text
  | none => Word.scalar a.toExcerpt

/-- Whether a character may stand in a key without quotes. -/
def isKeyChar (c : Char) : Bool := c.isAlphanum || c == '-' || c == '_'

/-- The name that an atom is as a key. -/
def Atom.name (a : Atom) : Except Failure String :=
  match a.quoting with
  | some q => if q.isLong then refuse (.longKey q) a.span else q.decode a.toExcerpt
  | none =>
    let bad := a.skip isKeyChar
    if a.isEmpty then refuse .emptyKey a.span
    else if bad.isEmpty then .ok (String.ofList a.text)
    else refuse .badKey (bad.take (bad.text.takeWhile (!isKeyChar ·)).length).span

end CommandMenu.Toml
