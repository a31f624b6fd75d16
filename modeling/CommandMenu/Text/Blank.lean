/-! # White space

The white space of menu texts is the Unicode property `White_Space`.  It bounds the words of a
command text, it is what trimming removes, and a text that holds nothing else counts as missing.

* `isBlank` is the property on characters.
* `trim` removes it at both ends, on lists of characters and on strings.
* `hasText` says that something other than white space is there, `nonBlank` keeps such texts.
-/

namespace CommandMenu.Text

/-- The characters with the Unicode property `White_Space`. -/
def isBlank (c : Char) : Bool :=
  let n := c.toNat
  (0x09 ≤ n && n ≤ 0x0D) || n == 0x20 || n == 0x85 || n == 0xA0 || n == 0x1680 ||
    (0x2000 ≤ n && n ≤ 0x200A) || n == 0x2028 || n == 0x2029 || n == 0x202F || n == 0x205F ||
    n == 0x3000

/-- Drops white space in front. -/
def trimStart (cs : List Char) : List Char := cs.dropWhile isBlank

/-- Drops white space behind. -/
def trimEnd (cs : List Char) : List Char := (cs.reverse.dropWhile isBlank).reverse

/-- Drops white space at both ends. -/
def trimChars (cs : List Char) : List Char := trimEnd (trimStart cs)

/-- The text without white space at its ends. -/
def trim (s : String) : String := String.ofList (trimChars s.toList)

/-- Some character is not white space. -/
def hasText (s : String) : Bool := s.toList.any fun c => !isBlank c

/-- A text that holds more than white space. -/
def nonBlank (s : String) : Option String := if hasText s then some s else none

/-- The trimmed text, if anything is left of it. -/
def trimmed? (s : String) : Option String := nonBlank (trim s)

end CommandMenu.Text
