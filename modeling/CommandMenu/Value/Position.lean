/-! # Positions in a document

A position is the list of steps from the root to a value.  Its text is what messages show:
`items[1].Workspace[0]`.

* `Position.render` writes a position, `Position.display` writes `<root>` for the empty text.
* `Position.key` and `Position.index` go one step deeper.
-/

namespace CommandMenu

/-- One step from a value to a part of it. -/
inductive Step where
  | key (name : String)
  | index (number : Nat)
deriving DecidableEq, Repr

/-- Writes a step behind the text of the position it starts from.  A key stands alone when that
text is empty, and behind a point otherwise. -/
def Step.extend (path : String) : Step → String
  | .key name => if path.isEmpty then name else path ++ "." ++ name
  | .index number => path ++ "[" ++ toString number ++ "]"

/-- The steps from the root to a value. -/
structure Position where
  steps : List Step
deriving DecidableEq, Repr

namespace Position

/-- The position of the whole document. -/
def root : Position := ⟨[]⟩

/-- The position of the value under a key. -/
def key (p : Position) (name : String) : Position := ⟨p.steps ++ [.key name]⟩

/-- The position of an element of a list. -/
def index (p : Position) (number : Nat) : Position := ⟨p.steps ++ [.index number]⟩

/-- The text of a position; it is empty for the root. -/
def render (p : Position) : String := p.steps.foldl Step.extend ""

/-- The text of a position in a message. -/
def display (p : Position) : String := if p.render.isEmpty then "<root>" else p.render

end Position
end CommandMenu
