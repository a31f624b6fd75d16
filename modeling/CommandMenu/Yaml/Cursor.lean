import CommandMenu.Text.Digits
import CommandMenu.Text.Octets
import CommandMenu.Yaml.Failure

/-! # Reading a YAML text

A cursor is the rest of a text together with the mark of its first character.

* `Cursor.isBreakAt` and its relatives classify the characters ahead; past the end there are none.
* `Cursor.skip` and `Cursor.skipBreak` move over a character and over a line break.
* `Cursor.takeWhile` and `Cursor.skipWhile` move along a line.
-/

namespace CommandMenu.Yaml

/-- Line feed, carriage return, next line, line separator, paragraph separator. -/
def isBreak (c : Char) : Bool :=
  c == '\n' || c == '\r' || c == '\u0085' || c == '\u2028' || c == '\u2029'

/-- Space or tab. -/
def isSpaceOrTab (c : Char) : Bool := c == ' ' || c == '\t'

/-- A letter or digit of ASCII, a hyphen or an underscore. -/
def isWordChar (c : Char) : Bool := c.isAlphanum || c == '_' || c == '-'

/-- The characters a YAML text may hold. -/
def isAllowed (c : Char) : Bool :=
  let n := c.toNat
  n == 0x09 || n == 0x0A || n == 0x0D || (0x20 ≤ n && n ≤ 0x7E) || n == 0x85 ||
    (0xA0 ≤ n && n ≤ 0xD7FF) || (0xE000 ≤ n && n ≤ 0xFFFD) || 0x10000 ≤ n

/-- The rest of a text and the mark of its first character. -/
structure Cursor where
  rest : List Char
  mark : Mark
deriving Repr

namespace Cursor

/-- The character `n` places ahead. -/
def peek (c : Cursor) (n : Nat) : Option Char := c.rest[n]?

/-- Whether the next character is `x`. -/
def sees (c : Cursor) (x : Char) : Bool := c.rest.head? == some x

/-- Whether the character `n` places ahead is `x`. -/
def seesAt (c : Cursor) (n : Nat) (x : Char) : Bool := c.peek n == some x

/-- Whether the next character satisfies `p`. -/
def seesAny (c : Cursor) (p : Char → Bool) : Bool :=
  match c.rest with
  | [] => false
  | x :: _ => p x

/-- Whether the text ends here. -/
def atEnd (c : Cursor) : Bool := c.rest.isEmpty

/-- Space or tab ahead. -/
def isBlankAt (c : Cursor) (n : Nat) : Bool :=
  match c.peek n with
  | some x => isSpaceOrTab x
  | none => false

/-- A line break ahead. -/
def isBreakAt (c : Cursor) (n : Nat) : Bool :=
  match c.peek n with
  | some x => isBreak x
  | none => false

/-- A line break or the end of the text ahead. -/
def isLineEndAt (c : Cursor) (n : Nat) : Bool :=
  match c.peek n with
  | some x => isBreak x
  | none => true

/-- Space, tab, line break or the end of the text ahead. -/
def isGapAt (c : Cursor) (n : Nat) : Bool :=
  match c.peek n with
  | some x => isSpaceOrTab x || isBreak x
  | none => true

/-- Moves over `n` characters of a line. -/
def skip (c : Cursor) (n : Nat) : Cursor :=
  let index := c.mark.index + Text.octets (c.rest.take n)
  ⟨c.rest.drop n, { c.mark with index, column := c.mark.column + n }⟩

/-- Moves over a line break, of which carriage return and line feed together are one.  The text of
a break is a line feed, except that the two separators stand for themselves. -/
def takeBreak (c : Cursor) : List Char × Cursor :=
  match c.rest with
  | '\r' :: '\n' :: rest => (['\n'], ⟨rest, c.mark.index + 2, c.mark.line + 1, 0⟩)
  | x :: rest =>
    if isBreak x then
      (if x == '\u2028' || x == '\u2029' then [x] else ['\n'],
        ⟨rest, c.mark.index + x.utf8Size, c.mark.line + 1, 0⟩)
    else ([], c)
  | [] => ([], c)

/-- Moves over a line break. -/
def skipBreak (c : Cursor) : Cursor := c.takeBreak.2

/-- The characters ahead that satisfy `p`, which no line break does, and the cursor behind them. -/
def takeWhile (c : Cursor) (p : Char → Bool) : List Char × Cursor :=
  let taken := c.rest.takeWhile p
  (taken, c.skip taken.length)

/-- Moves over the characters that satisfy `p`, which no line break does. -/
def skipWhile (c : Cursor) (p : Char → Bool) : Cursor := (c.takeWhile p).2

/-- Moves over spaces and tabs, and over a comment behind them. -/
def skipComment (c : Cursor) : Cursor :=
  let c := c.skipWhile isSpaceOrTab
  if c.sees '#' then c.skipWhile fun x => !isBreak x else c

/-- Three hyphens or three points at the start of a line, with a gap behind them. -/
def seesDocumentMark (c : Cursor) (x : Char) : Bool :=
  c.mark.column == 0 && c.seesAt 0 x && c.seesAt 1 x && c.seesAt 2 x && c.isGapAt 3

/-- Refuses the text at the cursor. -/
def refuse {α : Type} (c : Cursor) (problem : Problem) (setting : Setting) (since : Mark) :
    Except Failure α :=
  .error (.malformed problem c.mark (some (setting, since)))

end Cursor

end CommandMenu.Yaml
