import CommandMenu.Text.Octets

/-! # Parts of a TOML text

* `Span` tells a part of a text by the octets where it starts and where it stops.
* `Excerpt` is a part with its characters.
* `Excerpt.drop`, `Excerpt.skip` and `Excerpt.take` leave out some of them, `Excerpt.split` cuts at
  a mark.
-/

namespace CommandMenu.Toml

/-- A part of a text, in octets. -/
structure Span where
  start : Nat
  stop : Nat
deriving DecidableEq, Repr, Inhabited

namespace Span

/-- The empty part at an octet. -/
def point (offset : Nat) : Span := ⟨offset, offset⟩

/-- The empty part in front of a part. -/
def before (s : Span) : Span := point s.start

/-- The empty part behind a part. -/
def behind (s : Span) : Span := point s.stop

/-- The first `n` octets of a part. -/
def first (n : Nat) (s : Span) : Span := ⟨s.start, s.start + n⟩

/-- The part from the start of one part to the end of another. -/
def through (s t : Span) : Span := ⟨s.start, t.stop⟩

end Span

/-- Characters of a text, the first of which stands at an octet. -/
structure Excerpt where
  start : Nat
  text : List Char
deriving DecidableEq, Repr, Inhabited

namespace Excerpt

/-- Where the characters stand. -/
def span (e : Excerpt) : Span := ⟨e.start, e.start + Text.octets e.text⟩

/-- All but the first `n` characters. -/
def drop (n : Nat) (e : Excerpt) : Excerpt :=
  ⟨e.start + Text.octets (e.text.take n), e.text.drop n⟩

/-- The first `n` characters. -/
def take (n : Nat) (e : Excerpt) : Excerpt := ⟨e.start, e.text.take n⟩

/-- The characters behind those in front that satisfy `p`. -/
def skip (p : Char → Bool) (e : Excerpt) : Excerpt := e.drop (e.text.takeWhile p).length

/-- Whether no character is left. -/
def isEmpty (e : Excerpt) : Bool := e.text.isEmpty

/-- Whether some of the characters is `c`. -/
def contains (e : Excerpt) (c : Char) : Bool := e.text.contains c

/-- The parts between marks, given where the characters start. -/
def splitFrom (mark : Char) (start : Nat) : List Char → List Excerpt
  | [] => [⟨start, []⟩]
  | c :: cs =>
    if c = mark then ⟨start, []⟩ :: splitFrom mark (start + c.utf8Size) cs
    else match splitFrom mark (start + c.utf8Size) cs with
      | [] => [⟨start, [c]⟩]
      | part :: rest => ⟨start, c :: part.text⟩ :: rest

/-- The parts between marks. -/
def split (mark : Char) (e : Excerpt) : List Excerpt := splitFrom mark e.start e.text

end Excerpt
end CommandMenu.Toml
