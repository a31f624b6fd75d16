import CommandMenu.Text.Parts
import CommandMenu.Toml.Excerpt
import CommandMenu.Toml.Problem

/-! # Why a TOML text is refused

* `Toml.Failure` is a problem with the part of the text that is to blame.
* `Toml.Failure.message` shows that part below the line it stands in.
-/

namespace CommandMenu.Toml

/-- A problem with the part of the text that is to blame, if there is one. -/
structure Failure where
  problem : Problem
  span : Option Span
deriving DecidableEq, Repr

/-- Blames a part of the text. -/
def refuse {α : Type} (problem : Problem) (span : Span) : Except Failure α :=
  .error ⟨problem, some span⟩

/-! ### Messages -/

/-- The number of a line, and the number of characters in front of a place in it.  A place behind
the text counts from its last octet.  In front of a character of several octets, octets are
counted. -/
def place (text : String) (offset : Nat) : Nat × Nat :=
  let cs := text.toList
  let size := Text.octets cs
  if size = 0 then (0, offset)
  else
    let inside := min offset (size - 1)
    let through := Text.takeOctets (inside + 1) cs
    let front := through.dropLast
    let line := (front.filter (· == '\n')).length
    let ahead := (front.reverse.takeWhile (· != '\n')).reverse
    let whole := Text.octets through = inside + 1
    (line, (if whole then ahead.length else Text.octets ahead) + (offset - inside))

/-- `n` characters of a kind. -/
def run (n : Nat) (c : Char) : String := String.ofList (List.replicate n c)

/-- A part of a text, shown below the line where it starts. -/
def Span.display (s : Span) (text : String) : String :=
  let (line, column) := place text s.start
  let number := toString (line + 1)
  let content := (Text.lines text.toList).getD line []
  let width := min (s.stop - s.start) (Text.octets content - column)
  let margin := run (number.length + 1) ' ' ++ "|"
  "TOML parse error at line " ++ number ++ ", column " ++ toString (column + 1) ++ "\n" ++
    margin ++ "\n" ++
    number ++ " | " ++ String.ofList content ++ "\n" ++
    margin ++ run (column + 1) ' ' ++ run (max 1 width) '^' ++ "\n"

/-- The wording of a failure, below the part that is to blame. -/
def Failure.message (f : Failure) (text : String) : String :=
  (f.span.map (·.display text)).getD "" ++ f.problem.text ++ "\n"

end CommandMenu.Toml
