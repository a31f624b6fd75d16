/-! # Texts in octets

Places in a text are told in octets of its encoding, although the text itself is one of characters.

* `octets` is the number of octets of some characters.
* `slice` is the part of a text between two places.
-/

namespace CommandMenu.Text

/-- The number of octets of some characters. -/
def octets : List Char → Nat
  | [] => 0
  | c :: cs => c.utf8Size + octets cs

/-- The characters behind the first `n` octets. -/
def dropOctets : Nat → List Char → List Char
  | 0, cs => cs
  | _, [] => []
  | n, c :: cs => dropOctets (n - c.utf8Size) cs

/-- The characters of the first `n` octets. -/
def takeOctets : Nat → List Char → List Char
  | 0, _ => []
  | _, [] => []
  | n, c :: cs => c :: takeOctets (n - c.utf8Size) cs

/-- The text from one octet to another. -/
def slice (text : String) (start stop : Nat) : String :=
  String.ofList (takeOctets (stop - start) (dropOctets start text.toList))

end CommandMenu.Text
