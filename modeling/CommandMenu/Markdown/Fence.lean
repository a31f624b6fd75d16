import CommandMenu.Text.Blank
import CommandMenu.Text.Octets
import CommandMenu.Text.Parts

/-! # Fenced blocks of a Markdown document

A line that starts with three backticks is a marker.  Markers come in pairs: one opens a block, and
the next one closes it, whatever stands behind its backticks.  The menu is written in the first
block whose opening marker is tagged `yaml` or `yml`, or not tagged at all.

* `Marker.list` are the markers of a document, with their places in octets.
* `Block.find?` is the first closed block with an accepted tag.
-/

namespace CommandMenu.Markdown

/-! ### Markers -/

/-- What a marker line starts with. -/
def backticks : List Char := ['\x60', '\x60', '\x60']

/-- A marker line: where it starts and ends, and what follows its backticks. -/
structure Marker where
  start : Nat
  stop : Nat
  tag : String
deriving DecidableEq, Repr

/-- The markers among some lines, the first of which starts at an offset. -/
def Marker.ofLines : (offset : Nat) → List (List Char) → List Marker
  | _, [] => []
  | offset, line :: rest =>
    let stop := offset + Text.octets line
    let others := Marker.ofLines (stop + 1) rest
    if backticks.isPrefixOf line then
      ⟨offset, stop, String.ofList (line.drop backticks.length)⟩ :: others
    else others

/-- The markers of a document in order. -/
def Marker.list (text : String) : List Marker := Marker.ofLines 0 (Text.lines text.toList)

/-- The tags of blocks that hold a menu. -/
def acceptedTags : List String := ["yaml", "yml", ""]

/-- Whether a marker opens a block that holds a menu.  White space around the tag and the case of
its letters do not count. -/
def Marker.isAccepted (m : Marker) : Bool :=
  acceptedTags.contains (String.ofList ((Text.trimChars m.tag.toList).map Char.toLower))

/-! ### Blocks -/

/-- A closed block: the tag of its opening marker, and the text between its markers with its place
in octets. -/
structure Block where
  tag : String
  start : Nat
  stop : Nat
  body : String
deriving DecidableEq, Repr

/-- Where the search for a block stands. -/
inductive Search where
  | outside
  | skipping
  | inside (opening : Marker)

/-- The first accepted marker that opens a block, with the marker that closes it. -/
def Search.run : Search → List Marker → Option (Marker × Marker)
  | _, [] => none
  | .outside, m :: rest => if m.isAccepted then run (.inside m) rest else run .skipping rest
  | .skipping, _ :: rest => run .outside rest
  | .inside opening, m :: _ => some (opening, m)

/-- The block that holds the menu. -/
def Block.find? (text : String) : Option Block :=
  (Search.run .outside (Marker.list text)).map fun (opening, closing) =>
    ⟨opening.tag, opening.stop, closing.start, Text.slice text opening.stop closing.start⟩

end CommandMenu.Markdown
