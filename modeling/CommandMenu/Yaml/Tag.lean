/-! # Tags of YAML nodes

A tag is told in octets, because an escape in a tag may write any octet, whether or not the tag then
encodes a text.

* `Tag` is the type, `Tag.ofString` the tag that a text encodes.
* `Tag.join` puts the tag of a node together; an octet of zero ends each of its parts.
* `Tag.own?` recognises a tag of the user's own.
* `Tag.same` is equality of tags, for which an exclamation mark in front does not count.
-/

namespace CommandMenu.Yaml

/-- A tag as octets, which need not encode a text. -/
structure Tag where
  octets : List UInt8
deriving DecidableEq, Repr, Inhabited

namespace Tag

/-- The tag without octets. -/
def empty : Tag := ⟨[]⟩

/-- The tag that a text encodes. -/
def ofString (text : String) : Tag := ⟨text.toUTF8.data.toList⟩

/-- The octet of the exclamation mark. -/
def mark : UInt8 := 0x21

/-- Whether an exclamation mark comes first. -/
def hasMark (t : Tag) : Bool := t.octets.head? == some mark

/-- The octets in front of the first octet of zero. -/
def untilZero (t : Tag) : List UInt8 := t.octets.takeWhile (· != 0)

/-- The tag of a lead and a suffix. -/
def join (lead suffix : Tag) : Tag := ⟨lead.untilZero ++ suffix.untilZero⟩

/-- The octets behind an exclamation mark in front, unless nothing follows it. -/
def bare (t : Tag) : List UInt8 :=
  match t.octets with
  | first :: second :: rest => if first = mark then second :: rest else t.octets
  | octets => octets

/-- Whether the octets encode a text. -/
def isText (t : Tag) : Bool := (String.fromUTF8? t.octets.toByteArray).isSome

/-- A tag of the user's own, without its mark: it starts with an exclamation mark and encodes a
text. -/
def own? (t : Tag) : Option Tag := if t.hasMark && t.isText then some ⟨t.bare⟩ else none

/-- Equality of tags. -/
def same (s t : Tag) : Bool := s.bare == t.bare

end Tag
end CommandMenu.Yaml
