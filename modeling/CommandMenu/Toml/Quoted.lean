import CommandMenu.Text.Digits
import CommandMenu.Toml.Statement

/-! # What quoted texts denote

A literal text denotes what stands between its quotes.  In a basic text a backslash starts an
escape, and in a long basic text it may also hide the end of a line.

* `Quoting.decode` is the text that some characters with their quotes denote.
-/

namespace CommandMenu.Toml

namespace Quoting

/-! ### Escapes -/

/-- Reads a character by its number, in exactly `width` digits. -/
def readCodePoint (width : Nat) (e : Excerpt) : Except Failure (Char × Excerpt) :=
  let digits := (e.take width).text.takeWhile (Text.isDigitOf 16)
  if digits.length < width then refuse .shortCodePoint (e.drop digits.length).span.before
  else
    let n := Text.numberOf 16 digits
    if n < 0xD800 || (0xE000 ≤ n && n < 0x110000) then .ok (Char.ofNat n, e.drop width)
    else refuse .badCodePoint e.span.before

/-- Reads an escape behind its backslash. -/
def readEscape (e : Excerpt) : Except Failure (Char × Excerpt) :=
  match e.text with
  | 'b' :: _ => .ok ('\x08', e.drop 1)
  | 'e' :: _ => .ok ('\x1B', e.drop 1)
  | 'f' :: _ => .ok ('\x0C', e.drop 1)
  | 'n' :: _ => .ok ('\n', e.drop 1)
  | 'r' :: _ => .ok ('\r', e.drop 1)
  | 't' :: _ => .ok ('\t', e.drop 1)
  | '\\' :: _ => .ok ('\\', e.drop 1)
  | '"' :: _ => .ok ('"', e.drop 1)
  | 'x' :: _ => readCodePoint 2 (e.drop 1)
  | 'u' :: _ => readCodePoint 4 (e.drop 1)
  | 'U' :: _ => readCodePoint 8 (e.drop 1)
  | _ => refuse .badEscape e.span.before

/-! ### Line ends -/

/-- Whether a carriage return comes next that no line feed follows. -/
def hasLoneReturn : List Char → Bool
  | '\r' :: '\n' :: _ => false
  | '\r' :: _ => true
  | _ => false

/-- Refuses the text behind a carriage return. -/
def refuseReturn {α : Type} (e : Excerpt) : Except Failure α :=
  refuse .loneReturn (e.drop 1).span.before

/-- Moves over a line end in front. -/
def skipLineEnd (e : Excerpt) : Excerpt :=
  match e.text with
  | '\n' :: _ => e.drop 1
  | '\r' :: '\n' :: _ => e.drop 2
  | _ => e

/-- Whether a character is a blank. -/
def isBlank (c : Char) : Bool := c == ' ' || c == '\t'

/-- Moves over blanks and line ends. -/
def skipLines : Nat → Excerpt → Except Failure Excerpt
  | 0, e => .ok e
  | n + 1, e =>
    let e := e.skip isBlank
    let behind := skipLineEnd e
    if hasLoneReturn e.text then refuseReturn e
    else if behind.start = e.start then .ok e
    else skipLines n behind

/-- Moves over a line end that a backslash hides, with the blanks around it and the empty lines
behind it. -/
def skipHiddenLineEnd (e : Excerpt) : Except Failure Excerpt :=
  let e := e.skip isBlank
  let behind := skipLineEnd e
  if hasLoneReturn e.text then refuseReturn e
  else if behind.start = e.start then refuse .missingHiddenLineEnd e.span.before
  else skipLines behind.text.length behind

/-- Whether a backslash in front of some characters hides a line end. -/
def hidesLineEnd : List Char → Bool
  | c :: _ => isBlank c || c == '\n' || c == '\r'
  | [] => false

/-! ### Texts -/

/-- Whether a character may stand between the quotes. -/
def isTextChar (q : Quoting) (c : Char) : Bool :=
  c == '\t' || (0x20 ≤ c.toNat && c.toNat != 0x7F) || (q.isLong && (c == '\n' || c == '\r'))

/-- Reads the characters of a basic text; `out` are those read so far, in reverse order. -/
def readBasic (q : Quoting) : Nat → List Char → Excerpt → Except Failure String
  | 0, out, _ => .ok (String.ofList out.reverse)
  | n + 1, out, e =>
    match e.text with
    | [] => .ok (String.ofList out.reverse)
    | '\\' :: cs =>
      if q.isLong && hidesLineEnd cs then do
        let e ← skipHiddenLineEnd (e.drop 1)
        readBasic q n out e
      else do
        let (c, e) ← readEscape (e.drop 1)
        readBasic q n (c :: out) e
    | c :: _ =>
      if q.isLong && hasLoneReturn e.text then refuseReturn e
      else if q.isTextChar c then readBasic q n (c :: out) (e.drop 1)
      else refuse (.badCharacter q) (e.take (e.text.takeWhile fun x => !q.isTextChar x).length).span

/-- Reads the characters of a literal text. -/
def readLiteral (q : Quoting) : Nat → List Char → Excerpt → Except Failure String
  | 0, out, _ => .ok (String.ofList out.reverse)
  | n + 1, out, e =>
    match e.text with
    | [] => .ok (String.ofList out.reverse)
    | c :: _ =>
      if q.isLong && hasLoneReturn e.text then refuseReturn e
      else if q.isTextChar c then readLiteral q n (c :: out) (e.drop 1)
      else refuse (.badCharacter q) e.span.before

/-- The text that some characters with their quotes denote.  A line end right behind long quotes
does not belong to it. -/
def decode (q : Quoting) (e : Excerpt) : Except Failure String :=
  let size := q.quotes.length
  let inner := if q.isLong then skipLineEnd (e.drop size) else e.drop size
  if !q.quotes.isSuffixOf inner.text then refuse (.unclosedText q) e.span.behind
  else
    let inner := inner.take (inner.text.length - size)
    if q.isBasic then readBasic q (inner.text.length + 1) [] inner
    else readLiteral q (inner.text.length + 1) [] inner

end Quoting
end CommandMenu.Toml
