import CommandMenu.Yaml.Token.Scalar

/-! # Anchors, tags and directives of a YAML text

What stands in front of a node or of a document.

* `scanName` reads an anchor or an alias, `scanTag` a tag.
* `scanDirective` reads a directive with the rest of its line.
-/

namespace CommandMenu.Yaml

/-! ### Anchors and aliases -/

/-- The indicators that may follow a name without a gap. -/
def endsName (x : Char) : Bool :=
  x == '?' || x == ':' || x == ',' || x == ']' || x == '}' || x == '%' || x == '@' || x == '\x60'

/-- Reads the name of an anchor or of an alias behind its indicator. -/
def scanName (isAlias : Bool) (c : Cursor) : Scanned :=
  let (name, next) := (c.skip 1).takeWhile isWordChar
  if name.isEmpty || !(next.isGapAt 0 || next.seesAny endsName) then
    next.refuse .missingName (if isAlias then .aliasName else .anchor) c.mark
  else
    let name := String.ofList name
    .ok (⟨if isAlias then .alias name else .anchor name, c.mark, next.mark⟩, next)

/-! ### Tags -/

/-- The characters of a tag.  In a tag between angle brackets, and in the tag of a directive, the
flow indicators belong to it too. -/
def isTagChar (wide : Bool) (x : Char) : Bool :=
  isWordChar x || x == ';' || x == '/' || x == '?' || x == ':' || x == '@' || x == '&' ||
    x == '=' || x == '+' || x == '$' || x == '.' || x == '%' || x == '!' || x == '~' || x == '*' ||
    x == '\'' || x == '(' || x == ')' || (wide && (x == ',' || x == '[' || x == ']'))

/-- How many octets follow the first octet of a character. -/
def trailingCount? (first : UInt8) : Option Nat :=
  if first < 0x80 then some 0
  else if first / 0x20 = 6 then some 1
  else if first / 0x10 = 14 then some 2
  else if first / 8 = 30 then some 3
  else none

/-- Reads one octet written as a percent sign and two digits. -/
def scanOctet (setting : Setting) (since : Mark) (c : Cursor) : Except Failure (UInt8 × Cursor) :=
  match c.rest with
  | '%' :: a :: b :: _ =>
    match Text.numberOf? 16 [a, b] with
    | some octet => .ok (octet.toUInt8, c.skip 3)
    | none => c.refuse .badTagEscape setting since
  | _ => c.refuse .badTagEscape setting since

/-- Reads the further octets of an escaped character; `out` are those read so far, in reverse
order. -/
def scanTrailing (setting : Setting) (since : Mark) :
    Nat → List UInt8 → Cursor → Except Failure (List UInt8 × Cursor)
  | 0, out, c => .ok (out, c)
  | n + 1, out, c => do
    let (octet, next) ← scanOctet setting since c
    if octet / 0x40 = 2 then scanTrailing setting since n (octet :: out) next
    else c.refuse .badTrailingOctet setting since

/-- Reads a character whose octets are escaped one by one.  They have the form of an encoded
character, but nothing asks whether there is one with that number. -/
def scanTagEscape (setting : Setting) (since : Mark) (out : List UInt8) (c : Cursor) :
    Except Failure (List UInt8 × Cursor) := do
  let (octet, next) ← scanOctet setting since c
  match trailingCount? octet with
  | none => c.refuse .badLeadingOctet setting since
  | some k => scanTrailing setting since k (octet :: out) next

/-- Reads the octets of a tag; `out` are those read so far, in reverse order. -/
def tagOctets (wide : Bool) (setting : Setting) (since : Mark) :
    Nat → Cursor → List UInt8 → Except Failure (List UInt8 × Cursor)
  | 0, c, out => .ok (out.reverse, c)
  | n + 1, c, out =>
    if c.seesAny (isTagChar wide) then
      if c.sees '%' then do
        let (out, next) ← scanTagEscape setting since out c
        tagOctets wide setting since n next out
      else tagOctets wide setting since n (c.skip 1) ((c.rest.take 1).map Char.toUInt8 ++ out)
    else .ok (out.reverse, c)

/-- Reads a tag that must not be empty, unless something was read of it before. -/
def scanTagText (wide : Bool) (setting : Setting) (since : Mark) (head : List Char) (c : Cursor) :
    Except Failure (Tag × Cursor) := do
  let (octets, next) ← tagOctets wide setting since c.rest.length c []
  if head.isEmpty && octets.isEmpty then next.refuse .missingTagText setting since
  else return (⟨(head.drop 1).map Char.toUInt8 ++ octets⟩, next)

/-- Reads a tag handle: an exclamation mark, word characters, and mostly a second exclamation mark.
A directive needs that second mark, except behind the handle that is the mark alone. -/
def scanHandle (ofDirective : Bool) (since : Mark) (c : Cursor) :
    Except Failure (List Char × Cursor) :=
  if !c.sees '!' then
    c.refuse .missingTagMark (if ofDirective then .tagDirectiveHandle else .tag) since
  else
    let (word, next) := (c.skip 1).takeWhile isWordChar
    if next.sees '!' then .ok ('!' :: word ++ ['!'], next.skip 1)
    else if ofDirective && !word.isEmpty then next.refuse .missingTagMark .tagDirectiveName since
    else .ok ('!' :: word, next)

/-- Reads handle and suffix of a tag, without looking at what follows.  The exclamation mark alone
is a suffix. -/
def scanTagParts (since : Mark) (c : Cursor) : Except Failure (List Char × Tag × Cursor) := do
  if c.seesAt 1 '<' then
    let (suffix, next) ← scanTagText true .tagText since [] (c.skip 2)
    if next.sees '>' then return ([], suffix, next.skip 1)
    else next.refuse .missingTagClose .tag since
  else
    let (handle, next) ← scanHandle false since c
    if handle.length ≥ 2 && handle.getLast? == some '!' then
      let (suffix, next) ← scanTagText false .tagText since [] next
      return (handle, suffix, next)
    else
      let (suffix, next) ← scanTagText false .tagText since handle next
      if suffix.untilZero.isEmpty then return ([], ⟨[Tag.mark]⟩, next)
      else return (['!'], suffix, next)

/-- Reads a tag.  A gap must follow it, or in a flow collection a comma. -/
def scanTag (flow : Bool) (c : Cursor) : Scanned := do
  let (handle, suffix, next) ← scanTagParts c.mark c
  if next.isGapAt 0 || (flow && next.sees ',') then
    return (⟨.tag (String.ofList handle) suffix, c.mark, next.mark⟩, next)
  else next.refuse .missingBlankOrBreak .tag c.mark

/-! ### Directives -/

/-- Reads a part of a version number, of nine digits at most. -/
def scanVersionNumber (since : Mark) (c : Cursor) : Except Failure (Nat × Cursor) :=
  let (digits, next) := c.takeWhile Char.isDigit
  if digits.length > 9 then (c.skip 9).refuse .longVersion .versionDirective since
  else if digits.isEmpty then next.refuse .missingVersion .versionDirective since
  else .ok (Text.numberOf 10 digits, next)

/-- Reads the version of a directive. -/
def scanVersion (since : Mark) (c : Cursor) : Except Failure (Token × Cursor) := do
  let (major, c) ← scanVersionNumber since (c.skipWhile isSpaceOrTab)
  if !c.sees '.' then c.refuse .missingVersionPoint .versionDirective since
  else
    let (minor, c) ← scanVersionNumber since (c.skip 1)
    return (.versionDirective major minor, c)

/-- Reads the handle of a directive and the tag it leads to. -/
def scanTagDefinition (since : Mark) (c : Cursor) : Except Failure (Token × Cursor) := do
  let (handle, c) ← scanHandle true since (c.skipWhile isSpaceOrTab)
  if !c.isBlankAt 0 then c.refuse .missingBlank .tagDirective since
  else
    let (lead, c) ← scanTagText true .tagDirectiveText since [] (c.skipWhile isSpaceOrTab)
    if !c.isGapAt 0 then c.refuse .missingBlankOrBreak .tagDirective since
    else return (.tagDirective (String.ofList handle) lead, c)

/-- Reads a directive and the rest of its line. -/
def scanDirective (c : Cursor) : Scanned := do
  let since := c.mark
  let (name, c) := (c.skip 1).takeWhile isWordChar
  if name.isEmpty then c.refuse .unnamedDirective .directive since
  else if !c.isGapAt 0 then c.refuse .directiveNameEnd .directive since
  else
    let (token, c) ←
      if name == "YAML".toList then scanVersion since c
      else if name == "TAG".toList then scanTagDefinition since c
      else c.refuse .unknownDirective .directive since
    let stop := c.mark
    let c := c.skipComment
    if !c.isLineEndAt 0 then c.refuse .directiveLineEnd .directive since
    else return (⟨token, since, stop⟩, c.skipBreak)

end CommandMenu.Yaml
