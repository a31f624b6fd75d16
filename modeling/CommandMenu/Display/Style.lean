/-! # Styled text for a terminal

A style is a colour and a weight.  Text in a style stands between escape codes: colour first, then
weight, and a reset behind the text.  Without colours the text stands alone.

* `Style.apply` writes a text in a style.
-/

namespace CommandMenu

/-- The colours in use. -/
inductive Style.Colour where
  | red
  | green
  | yellow
  | cyan
deriving DecidableEq, Repr

/-- The weights in use. -/
inductive Style.Weight where
  | bold
  | dim
deriving DecidableEq, Repr

/-- A colour and a weight, each of which may be the usual one. -/
structure Style where
  colour : Option Style.Colour := none
  weight : Option Style.Weight := none
deriving DecidableEq, Repr

namespace Style

/-- The number of a colour in an escape code. -/
def Colour.code : Colour → Nat
  | .red => 31
  | .green => 32
  | .yellow => 33
  | .cyan => 36

/-- The number of a weight in an escape code. -/
def Weight.code : Weight → Nat
  | .bold => 1
  | .dim => 2

/-- The escape code with a number. -/
def escape (n : Nat) : String := "\x1B[" ++ toString n ++ "m"

/-- The escape codes in front of a text. -/
def start (s : Style) : String :=
  ((s.colour.map fun c => escape c.code).getD "") ++ ((s.weight.map fun w => escape w.code).getD "")

/-- A text in a style. -/
def apply (s : Style) (colours : Bool) (text : String) : String :=
  if colours then s.start ++ text ++ escape 0 else text

/-- Heavy text. -/
def bold : Style := { weight := some .bold }

/-- Faint text. -/
def dim : Style := { weight := some .dim }

/-- Text in the colour of keys. -/
def cyan : Style := { colour := some .cyan }

end Style
end CommandMenu
