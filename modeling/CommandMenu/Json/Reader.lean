import CommandMenu.Json.Failure
import CommandMenu.Json.Numeral
import CommandMenu.Json.Value
import CommandMenu.Text.Octets

/-! # Reading JSON texts

* `Json.Tree` is a JSON text as written.  Numerals keep their digits, and a string with a lone
  surrogate has no content.
* `Tree.read` reads a text.  In a strict reading every part must have a value: numbers are in
  range, surrogates are paired, and lists and objects nest less than `maxDepth` deep.
* `Tree.value?` is the value of a tree under the same demands.
-/

namespace CommandMenu.Json

/-- A JSON text as written. -/
inductive Tree where
  | null
  | bool (value : Bool)
  | number (numeral : Numeral)
  | string (content : Option String)
  | array (items : List Tree)
  | object (members : List (Option String × Tree))
deriving Repr, Inhabited

/-- Lists and objects nest less deep than this. -/
def maxDepth : Nat := 128

/-- The rest of a text, with the line of its first character and the octets of that line in front
of it. -/
structure Cursor where
  rest : List Char
  line : Nat
  column : Nat

namespace Cursor

/-- Moves over one character. -/
def skip (c : Cursor) : Cursor :=
  match c.rest with
  | [] => c
  | '\n' :: rest => ⟨rest, c.line + 1, 0⟩
  | x :: rest => ⟨rest, c.line, c.column + x.utf8Size⟩

/-- The place `n` octets ahead; the last character may be counted in part. -/
def octetsAhead : List Char → (n line column : Nat) → Nat × Nat
  | [], _, line, column => (line, column)
  | x :: rest, n, line, column =>
    if n < x.utf8Size then (line, column + n)
    else if x == '\n' then octetsAhead rest (n - 1) (line + 1) 0
    else octetsAhead rest (n - x.utf8Size) line (column + x.utf8Size)

/-- Refuses the text `n` octets ahead. -/
def refuseAhead {α : Type} (c : Cursor) (n : Nat) (cause : Cause) : Except Failure α :=
  let place := octetsAhead c.rest n c.line c.column
  .error ⟨cause, place.1, place.2⟩

/-- Refuses the text in front of the next character. -/
def refuse {α : Type} (c : Cursor) (cause : Cause) : Except Failure α :=
  .error ⟨cause, c.line, c.column⟩

/-- Refuses the text at the next character. -/
def refuseNext {α : Type} (c : Cursor) (cause : Cause) : Except Failure α :=
  match c.rest with
  | [] => .error ⟨cause, c.line, c.column⟩
  | '\n' :: _ => .error ⟨cause, c.line + 1, 0⟩
  | _ => .error ⟨cause, c.line, c.column + 1⟩

/-- Moves over white space. -/
def skipBlanks (c : Cursor) : Cursor :=
  go c c.rest.length
where
  /-- Moves over at most `n` blanks. -/
  go (c : Cursor) : Nat → Cursor
    | 0 => c
    | n + 1 =>
      match c.rest with
      | x :: _ => if x == ' ' || x == '\n' || x == '\t' || x == '\r' then go c.skip n else c
      | [] => c

/-- Moves over digits. -/
def takeDigits (c : Cursor) : List Char × Cursor :=
  let digits := c.rest.takeWhile Char.isDigit
  (digits, ⟨c.rest.drop digits.length, c.line, c.column + digits.length⟩)

end Cursor

/-! ### Words and numbers -/

/-- Reads the rest of a word. -/
def readWord (t : Tree) : List Char → Cursor → Except Failure (Tree × Cursor)
  | [], c => .ok (t, c)
  | x :: word, c =>
    match c.rest with
    | [] => c.refuse .endInValue
    | y :: _ => if x = y then readWord t word c.skip else c.skip.refuse .badWord

/-- Reads the digits in front of the point.  A zero stands alone. -/
def readWhole (c : Cursor) : Except Failure (List Char × Cursor) :=
  match c.rest with
  | [] => c.refuse .endInValue
  | '0' :: rest =>
    if rest.head?.any Char.isDigit then c.skip.refuseNext .badNumber else .ok (['0'], c.skip)
  | x :: _ => if x.isDigit then .ok c.takeDigits else c.skip.refuse .badNumber

/-- Reads the digits behind the point, if there is a point. -/
def readFraction (c : Cursor) : Except Failure (Option (List Char) × Cursor) :=
  match c.rest with
  | '.' :: _ =>
    let (digits, next) := c.skip.takeDigits
    if digits.isEmpty then
      next.refuseNext (if next.rest.isEmpty then .endInValue else .badNumber)
    else .ok (some digits, next)
  | _ => .ok (none, c)

/-- Reads the exponent, if there is one. -/
def readExponent (c : Cursor) : Except Failure (Option (Bool × List Char) × Cursor) :=
  match c.rest with
  | x :: _ =>
    if x == 'e' || x == 'E' then
      let c := c.skip
      let (negative, c) := match c.rest with
        | '+' :: _ => (false, c.skip)
        | '-' :: _ => (true, c.skip)
        | _ => (false, c)
      match c.rest with
      | [] => c.refuse .endInValue
      | y :: _ =>
        if y.isDigit then
          let (digits, next) := c.takeDigits
          .ok (some (negative, digits), next)
        else c.skip.refuse .badNumber
    else .ok (none, c)
  | [] => .ok (none, c)

/-- Reads a number behind its sign. -/
def readNumber (strict negative : Bool) (c : Cursor) : Except Failure (Tree × Cursor) := do
  let (whole, c) ← readWhole c
  let (fraction, c) ← readFraction c
  let (exponent, c) ← readExponent c
  let numeral : Numeral := ⟨negative, whole, fraction, exponent⟩
  if strict && numeral.number?.isNone then c.refuse .hugeNumber
  else return (.number numeral, c)

/-! ### Strings -/

/-- Whether the rest of the text has four octets. -/
def hasFourOctets (cs : List Char) : Bool :=
  Text.octets (cs.take 4) ≥ 4

/-- Reads the four digits of an escape. -/
def readHex (c : Cursor) : Except Failure (Nat × Cursor) :=
  if !hasFourOctets c.rest then c.refuseAhead 4 .endInString
  else
    match Text.numberOf? 16 (c.rest.take 4) with
    | some n => .ok (n, c.skip.skip.skip.skip)
    | none => c.refuseAhead 4 .badEscape

/-- Reads the second half of a surrogate pair, given the first one. -/
def readLowSurrogate (high : Nat) (c : Cursor) : Except Failure (Char × Cursor) :=
  match c.rest with
  | [] => c.refuse .endInString
  | '\\' :: rest =>
    let c := c.skip
    match rest with
    | [] => c.refuse .endInString
    | 'u' :: _ => do
      let (low, next) ← readHex c.skip
      if low < 0xDC00 || low > 0xDFFF then next.refuse .loneSurrogate
      else return (Char.ofNat (0x10000 + (high - 0xD800) * 0x400 + (low - 0xDC00)), next)
    | x :: _ => c.refuseAhead (min 1 x.utf8Size) .endOfHexEscape
  | x :: _ => c.refuseAhead (min 1 x.utf8Size) .endOfHexEscape

/-- What a letter behind a backslash stands for. -/
def letterEscape? : Char → Option Char
  | '"' => some '"'
  | '\\' => some '\\'
  | '/' => some '/'
  | 'b' => some '\x08'
  | 'f' => some '\x0C'
  | 'n' => some '\n'
  | 'r' => some '\r'
  | 't' => some '\t'
  | _ => none

/-- Reads an escape behind its backslash.  Unless the reading is strict, a lone surrogate is passed
over, and yields no character. -/
def readEscape (strict : Bool) (c : Cursor) : Except Failure (Option Char × Cursor) :=
  match c.rest with
  | [] => c.refuse .endInString
  | 'u' :: _ => do
    let (n, next) ← readHex c.skip
    if 0xDC00 ≤ n && n ≤ 0xDFFF then
      if strict then next.refuse .loneSurrogate else return (none, next)
    else if 0xD800 ≤ n && n ≤ 0xDBFF then
      match readLowSurrogate n next with
      | .ok (x, next) => return (some x, next)
      | .error failure => if strict then .error failure else return (none, next)
    else return (some (Char.ofNat n), next)
  | x :: _ =>
    match letterEscape? x with
    | some y => .ok (some y, c.skip)
    | none => c.refuseAhead (min 1 x.utf8Size) .badEscape

/-- Reads a string behind its first quote.  `out` is what was read of it, in reverse order, unless
something in it has no character. -/
def readString (strict : Bool) :
    Nat → Cursor → Option (List Char) → Except Failure (Option String × Cursor)
  | 0, c, _ => c.refuse .endInString
  | n + 1, c, out =>
    match c.rest with
    | [] => c.refuse .endInString
    | '"' :: _ => .ok (out.map fun cs => String.ofList cs.reverse, c.skip)
    | '\\' :: _ => do
      let (x, next) ← readEscape strict c.skip
      readString strict n next (out.bind fun cs => x.map (· :: cs))
    | x :: _ =>
      if x.toNat < 0x20 then c.skip.refuse .controlCharacter
      else readString strict n c.skip (out.map (x :: ·))

/-! ### Values -/

mutual

/-- Reads a value behind white space.  `levels` is how many levels of lists and objects a strict
reading may still open. -/
def readValue (strict : Bool) : Nat → (levels : Nat) → Cursor → Except Failure (Tree × Cursor)
  | 0, _, c => c.refuseNext .endInValue
  | n + 1, levels, c =>
    let c := c.skipBlanks
    match c.rest with
    | [] => c.refuseNext .endInValue
    | 'n' :: _ => readWord .null "ull".toList c.skip
    | 't' :: _ => readWord (.bool true) "rue".toList c.skip
    | 'f' :: _ => readWord (.bool false) "alse".toList c.skip
    | '-' :: _ => readNumber strict true c.skip
    | '"' :: _ => do
      let (s, next) ← readString strict (c.rest.length + 1) c.skip (some [])
      return (.string s, next)
    | '[' :: _ =>
      if strict && levels ≤ 1 then c.refuseNext .tooDeep
      else readItems strict n (levels - 1) true c.skip []
    | '{' :: _ =>
      if strict && levels ≤ 1 then c.refuseNext .tooDeep
      else readMembers strict n (levels - 1) true c.skip []
    | x :: _ =>
      if x.isDigit then readNumber strict false c else c.refuseNext .missingValue

/-- Reads the items of a list behind its bracket, or behind an item. -/
def readItems (strict : Bool) :
    Nat → (levels : Nat) → (first : Bool) → Cursor → List Tree → Except Failure (Tree × Cursor)
  | 0, _, _, c, _ => c.refuseNext .endInArray
  | n + 1, levels, first, c, out => do
    let c := c.skipBlanks
    match c.rest with
    | [] => c.refuseNext .endInArray
    | ']' :: _ => return (.array out.reverse, c.skip)
    | x :: _ =>
      let c ←
        if first then pure c
        else if x == ',' then
          let next := c.skip.skipBlanks
          match next.rest with
          | [] => next.refuseNext .endInValue
          | ']' :: _ => next.refuseNext .trailingComma
          | _ => pure next
        else c.refuseNext .missingArrayEnd
      let (item, c) ← readValue strict n levels c
      readItems strict n levels false c (item :: out)

/-- Reads the members of an object behind its brace, or behind a member. -/
def readMembers (strict : Bool) :
    Nat → (levels : Nat) → (first : Bool) → Cursor → List (Option String × Tree) →
    Except Failure (Tree × Cursor)
  | 0, _, _, c, _ => c.refuseNext .endInObject
  | n + 1, levels, first, c, out => do
    let c := c.skipBlanks
    match c.rest with
    | [] => c.refuseNext .endInObject
    | '}' :: _ => return (.object out.reverse, c.skip)
    | x :: _ =>
      let c ←
        if first then pure c
        else if x == ',' then
          let next := c.skip.skipBlanks
          match next.rest with
          | [] => next.refuseNext .endInValue
          | '}' :: _ => next.refuseNext .trailingComma
          | _ => pure next
        else c.refuseNext .missingObjectEnd
      if !(c.rest.head? == some '"') then c.refuseNext .keyNotString
      else
        let (key, c) ← readString strict (c.rest.length + 1) c.skip (some [])
        let c := c.skipBlanks
        match c.rest with
        | [] => c.refuseNext .endInObject
        | ':' :: _ =>
          let (value, c) ← readValue strict n levels c.skip
          readMembers strict n levels false c ((key, value) :: out)
        | _ => c.refuseNext .missingColon

end

/-- Reads a text that holds one value. -/
def Tree.read (strict : Bool) (text : String) : Except Failure Tree := do
  let cs := text.toList
  let (t, c) ← readValue strict (2 * cs.length + 2) maxDepth ⟨cs, 1, 0⟩
  let c := c.skipBlanks
  if c.rest.isEmpty then return t else c.refuseNext .trailingText

/-! ### Values of trees -/

namespace Tree

mutual

/-- The value of a tree, if all its parts have one and at most `levels` levels of lists and objects
are nested in it. -/
def value? (levels : Nat) : Tree → Option Value
  | .null => some .null
  | .bool b => some (.bool b)
  | .number n => n.number?.map .number
  | .string s => s.map .string
  | .array items =>
    match levels with
    | 0 => none
    | levels + 1 => (items? levels items).map .array
  | .object members =>
    match levels with
    | 0 => none
    | levels + 1 => (members? levels members).map .object

/-- The values of items. -/
def items? (levels : Nat) : List Tree → Option (List Value)
  | [] => some []
  | t :: rest => do
    let v ← t.value? levels
    let vs ← items? levels rest
    return v :: vs

/-- The values of members. -/
def members? (levels : Nat) : List (Option String × Tree) → Option (List (String × Value))
  | [] => some []
  | (k, t) :: rest => do
    let k ← k
    let v ← t.value? levels
    let vs ← members? levels rest
    return (k, v) :: vs

end

end Tree

end CommandMenu.Json
