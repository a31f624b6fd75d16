import CommandMenu.Text.Blank

/-! # Commands written as a text

A text such as `editor:focus Focus the editor` names a command and may go on with a display name.
The command is the first run of characters without white space.  It must contain a colon, unless it
is one of a few older names.

* `CommandText.ofText?` splits a text, `CommandText.isQualified` tells whether its command has a
  colon.
-/

namespace CommandMenu

/-- A command with its display name, if it has one. -/
structure CommandText where
  id : String
  name : Option String
deriving DecidableEq, Repr

namespace CommandText

/-- The command names that need no colon. -/
def legacyNames : List String :=
  ["undo", "redo", "copy", "cut", "paste", "select-all", "save", "close"]

/-- Whether a run of characters is the name of a command. -/
def isCommand (head : List Char) : Bool :=
  legacyNames.contains (String.ofList head) || head.contains ':'

/-- Splits a text into a command and the rest, which is its display name unless it is blank. -/
def ofText? (text : String) : Option CommandText :=
  let cs := Text.trimChars text.toList
  let head := cs.takeWhile fun c => !Text.isBlank c
  let tail := cs.dropWhile fun c => !Text.isBlank c
  if isCommand head then some ⟨String.ofList head, Text.trimmed? (String.ofList tail)⟩ else none

/-- Whether a text starts with a command that has a colon. -/
def isQualified (text : String) : Bool := (ofText? text).any fun c => c.id.toList.contains ':'

end CommandText
end CommandMenu
