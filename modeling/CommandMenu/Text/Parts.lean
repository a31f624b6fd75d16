/-! # Texts in parts

A mark sets the parts of a text apart and belongs to none of them.

* `split` are the parts between marks, `lines` the parts between line feeds.
-/

namespace CommandMenu.Text

/-- The parts of a text between marks.  There is one part more than there are marks. -/
def split (mark : Char) : List Char → List (List Char)
  | [] => [[]]
  | c :: cs =>
    if c = mark then [] :: split mark cs
    else match split mark cs with
      | [] => [[c]]
      | part :: rest => (c :: part) :: rest

/-- The lines of a text.  Nothing but a line feed ends a line. -/
def lines (cs : List Char) : List (List Char) := split '\n' cs

end CommandMenu.Text
