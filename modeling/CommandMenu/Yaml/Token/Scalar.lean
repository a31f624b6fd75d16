import CommandMenu.Yaml.Cursor
import CommandMenu.Yaml.Token

/-! # Scalars of a YAML text

The three ways to write a scalar: plain, between quotes, and as a block of lines.

* `Gap` is the white space between two words of a plain or quoted scalar; `Gap.text` folds it.
* `scanPlain`, `scanQuoted` and `scanBlock` read a scalar at the cursor.

Every loop consumes the text, so that its length bounds the number of rounds.
-/

namespace CommandMenu.Yaml

/-- The result of reading one token. -/
abbrev Scanned := Except Failure (Placed × Cursor)

/-! ### White space between words -/

/-- White space between two words: the blanks up to the first line break, that break, and the
further breaks.  Once a line is broken, blanks do not count. -/
structure Gap where
  blanks : List Char := []
  first : List Char := []
  more : List Char := []
  broken : Bool := false

/-- What a gap contributes to the scalar: a single line break becomes a space, of several the
first one is dropped. -/
def Gap.text (g : Gap) : List Char :=
  if !g.broken then g.blanks
  else if g.first == ['\n'] then if g.more.isEmpty then [' '] else g.more
  else g.first ++ g.more

/-- Reads white space.  In a plain scalar (`limit?` is its indentation and its start) a tab must
not stand in the indentation of a further line. -/
def takeGap (limit? : Option (Int × Mark)) : Nat → Cursor → Gap → Except Failure (Gap × Cursor)
  | 0, c, g => .ok (g, c)
  | n + 1, c, g =>
    if c.isBlankAt 0 then
      match limit? with
      | some (limit, since) =>
        if g.broken && (c.mark.column : Int) < limit && c.sees '\t' then
          c.refuse .tabBeforeText .plainScalar since
        else takeGap limit? n (c.skip 1)
          (if g.broken then g else { g with blanks := g.blanks ++ c.rest.take 1 })
      | none => takeGap limit? n (c.skip 1)
          (if g.broken then g else { g with blanks := g.blanks ++ c.rest.take 1 })
    else if c.isBreakAt 0 then
      let (text, next) := c.takeBreak
      takeGap limit? n next
        (if g.broken then { g with more := g.more ++ text }
         else { g with first := text, broken := true })
    else .ok (g, c)

/-! ### Plain scalars -/

/-- The indicators that end a plain scalar inside flow collections. -/
def isFlowIndicator (x : Char) : Bool :=
  x == ',' || x == '[' || x == ']' || x == '{' || x == '}'

/-- The characters that must not follow a colon inside a plain scalar of a flow collection. -/
def isColonEnemy (x : Char) : Bool := isFlowIndicator x || x == '?'

/-- Whether a gap or the end of the text comes next. -/
def gapNext : List Char → Bool
  | [] => true
  | x :: _ => isSpaceOrTab x || isBreak x

/-- The characters of a plain scalar up to the next gap or indicator. -/
def plainWord (flow : Bool) : List Char → List Char
  | [] => []
  | x :: rest =>
    if isSpaceOrTab x || isBreak x then []
    else if x == ':' && (gapNext rest || (flow && rest.head?.any isColonEnemy)) then []
    else if flow && isFlowIndicator x then []
    else x :: plainWord flow rest

/-- Reads the words of a plain scalar.  The result also tells whether the scalar ends behind a line
break. -/
def plainWords (flow : Bool) (limit : Int) (since : Mark) :
    Nat → Cursor → Gap → List Char → Mark → Except Failure (List Char × Mark × Bool × Cursor)
  | 0, c, g, out, stop => .ok (out, stop, g.broken, c)
  | n + 1, c, g, out, stop =>
    if c.seesDocumentMark '-' || c.seesDocumentMark '.' || c.sees '#' then
      .ok (out, stop, g.broken, c)
    else
      let word := plainWord flow c.rest
      let c' := c.skip word.length
      if flow && c'.sees ':' && (c'.peek 1).any isColonEnemy then
        c'.refuse .unexpectedColon .plainScalar since
      else
        let (out, stop, g) :=
          if word.isEmpty then (out, stop, g) else (out ++ g.text ++ word, c'.mark, {})
        if !(c'.isBlankAt 0 || c'.isBreakAt 0) then .ok (out, stop, g.broken, c')
        else do
          let (g, next) ← takeGap (some (limit, since)) c'.rest.length c' g
          if !flow && (next.mark.column : Int) < limit then .ok (out, stop, g.broken, next)
          else plainWords flow limit since n next g out stop

/-- Reads a plain scalar.  `limit` is the least column of its further lines. -/
def scanPlain (flow : Bool) (limit : Int) (c : Cursor) :
    Except Failure (Placed × Bool × Cursor) := do
  let (text, stop, broken, next) ← plainWords flow limit c.mark (c.rest.length + 1) c {} [] c.mark
  return (⟨.scalar (String.ofList text) true, c.mark, stop⟩, broken, next)

/-! ### Quoted scalars -/

/-- What an escape of one letter stands for. -/
def escape? : Char → Option Char
  | '0' => some '\x00'
  | 'a' => some '\x07'
  | 'b' => some '\x08'
  | 't' => some '\t'
  | '\t' => some '\t'
  | 'n' => some '\n'
  | 'v' => some '\x0B'
  | 'f' => some '\x0C'
  | 'r' => some '\r'
  | 'e' => some '\x1B'
  | ' ' => some ' '
  | '"' => some '"'
  | '/' => some '/'
  | '\\' => some '\\'
  | 'N' => some '\u0085'
  | '_' => some '\u00A0'
  | 'L' => some '\u2028'
  | 'P' => some '\u2029'
  | _ => none

/-- How many hexadecimal digits follow an escape letter. -/
def escapeDigits? : Char → Option Nat
  | 'x' => some 2
  | 'u' => some 4
  | 'U' => some 8
  | _ => none

/-- Reads one escape at a backslash. -/
def scanEscape (since : Mark) (c : Cursor) : Except Failure (Char × Cursor) :=
  match c.peek 1 with
  | none => c.refuse .unknownEscape .quotedText since
  | some x =>
    match escape? x, escapeDigits? x with
    | some y, _ => .ok (y, c.skip 2)
    | none, some k =>
      let c := c.skip 2
      let digits := c.rest.take k
      if digits.length < k || !digits.all (Text.isDigitOf 16) then
        c.refuse .missingHexDigit .quotedText since
      else
        let n := Text.numberOf 16 digits
        if h : n.isValidChar then .ok (Char.ofNatAux n h, c.skip k)
        else c.refuse .badCharacterNumber .quotedText since
    | none, none => c.refuse .unknownEscape .quotedText since

/-- Reads characters between quotes up to a gap or the closing quote.  The result tells whether it
ends with an escaped line break. -/
def quotedWord (single : Bool) (since : Mark) :
    Nat → Cursor → List Char → Except Failure (List Char × Bool × Cursor)
  | 0, c, out => .ok (out, false, c)
  | n + 1, c, out =>
    if c.isGapAt 0 then .ok (out, false, c)
    else if single then
      if c.sees '\'' then
        if c.seesAt 1 '\'' then quotedWord single since n (c.skip 2) ('\'' :: out)
        else .ok (out, false, c)
      else quotedWord single since n (c.skip 1) (c.rest.take 1 ++ out)
    else if c.sees '"' then .ok (out, false, c)
    else if c.sees '\\' then
      if c.isBreakAt 1 then .ok (out, true, (c.skip 1).skipBreak)
      else do
        let (x, next) ← scanEscape since c
        quotedWord single since n next (x :: out)
    else quotedWord single since n (c.skip 1) (c.rest.take 1 ++ out)

/-- Reads the words between quotes up to the closing quote. -/
def quotedWords (single : Bool) (since : Mark) :
    Nat → Cursor → List Char → Except Failure (List Char × Cursor)
  | 0, c, out => .ok (out, c)
  | n + 1, c, out =>
    if c.seesDocumentMark '-' || c.seesDocumentMark '.' then
      c.refuse .documentMarkInQuotes .quotedScalar since
    else if c.atEnd then c.refuse .textEndInQuotes .quotedScalar since
    else do
      let (word, escaped, c) ← quotedWord single since c.rest.length c []
      let out := out ++ word.reverse
      if c.sees (if single then '\'' else '"') then return (out, c)
      let (g, c) ← takeGap none c.rest.length c { broken := escaped }
      quotedWords single since n c (out ++ g.text)

/-- Reads a quoted scalar. -/
def scanQuoted (single : Bool) (c : Cursor) : Scanned := do
  let (text, next) ← quotedWords single c.mark (c.rest.length + 1) (c.skip 1) []
  let next := next.skip 1
  return (⟨.scalar (String.ofList text) false, c.mark, next.mark⟩, next)

/-! ### Block scalars -/

/-- What happens to the line breaks at the end of a block scalar. -/
inductive Chomping where
  | strip
  | clip
  | keep
deriving DecidableEq

/-- The chomping that a sign asks for. -/
def Chomping.ofSign (c : Cursor) : Option Chomping :=
  if c.sees '+' then some .keep else if c.sees '-' then some .strip else none

/-- Reads the digit that fixes the indentation, which is not zero. -/
def scanIndentation (since : Mark) (c : Cursor) : Except Failure (Option Nat × Cursor) :=
  match c.rest with
  | x :: _ =>
    if x == '0' then c.refuse .zeroIndentation .blockScalar since
    else if x.isDigit then .ok (Text.digit? x, c.skip 1)
    else .ok (none, c)
  | [] => .ok (none, c)

/-- Reads sign and digit behind the indicator of a block scalar, in either order. -/
def scanBlockHeader (since : Mark) (c : Cursor) :
    Except Failure (Chomping × Option Nat × Cursor) := do
  match Chomping.ofSign c with
  | some chomping =>
    let (indentation, c) ← scanIndentation since (c.skip 1)
    return (chomping, indentation, c)
  | none =>
    let (indentation, c) ← scanIndentation since c
    match indentation, Chomping.ofSign c with
    | some _, some chomping => return (chomping, indentation, c.skip 1)
    | _, _ => return (.clip, indentation, c)

/-- The line breaks and indentation between two lines of a block scalar. -/
structure BlockGap where
  breaks : List Char
  widest : Nat
  stop : Mark

/-- Reads indentation and empty lines.  As long as the indentation is not known, all spaces count
as indentation. -/
def takeBlockGap (since : Mark) (indent? : Option Nat) :
    Nat → Cursor → BlockGap → Except Failure (BlockGap × Cursor)
  | 0, c, g => .ok (g, c)
  | n + 1, c, g =>
    let inside (c : Cursor) : Bool := match indent? with
      | some i => c.mark.column < i
      | none => true
    let spaces := (c.rest.takeWhile (· == ' ')).length
    let c := c.skip (match indent? with
      | some i => min spaces (i - c.mark.column)
      | none => spaces)
    let g := { g with widest := max g.widest c.mark.column }
    if inside c && c.sees '\t' then c.refuse .tabInIndentation .blockScalar since
    else if !c.isBreakAt 0 then .ok (g, c)
    else
      let (text, next) := c.takeBreak
      takeBlockGap since indent? n next { g with breaks := g.breaks ++ text, stop := next.mark }

/-- Reads the lines of a block scalar.  `lead` is the break in front of the current line, `gap` the
breaks of the empty lines behind that, and `blank` tells whether the line before starts with white
space, which keeps its break from being folded. -/
def blockLines (literal : Bool) (since : Mark) (indent : Nat) :
    Nat → Cursor → (out lead : List Char) → BlockGap → (blank : Bool) →
    Except Failure (List Char × List Char × BlockGap × Cursor)
  | 0, c, out, lead, gap, _ => .ok (out, lead, gap, c)
  | n + 1, c, out, lead, gap, blank =>
    if c.mark.column != indent || c.atEnd then .ok (out, lead, gap, c)
    else
      let starts := c.isBlankAt 0
      let joint :=
        if !literal && lead == ['\n'] && !blank && !starts then
          if gap.breaks.isEmpty then [' '] else []
        else lead
      let (line, c) := c.takeWhile fun x => !isBreak x
      let (lead, c) := c.takeBreak
      do
        let (next, c) ← takeBlockGap since (some indent) (c.rest.length + 1) c ⟨[], 0, c.mark⟩
        blockLines literal since indent n c (out ++ joint ++ gap.breaks ++ line) lead next starts

/-- Reads a block scalar.  `parent` is the indentation of the collection around it, `-1` outside
of all. -/
def scanBlock (literal : Bool) (parent : Int) (c : Cursor) : Scanned := do
  let since := c.mark
  let (chomping, indentation, c) ← scanBlockHeader since (c.skip 1)
  let c := c.skipComment
  if !c.isLineEndAt 0 then c.refuse .missingLineEnd .blockScalar since
  else
    let c := c.skipBreak
    let fixed : Option Nat := indentation.map fun k => if parent ≥ 0 then parent.toNat + k else k
    let (gap, c) ← takeBlockGap since fixed (c.rest.length + 1) c ⟨[], 0, c.mark⟩
    let indent := match fixed with
      | some i => i
      | none => max (max gap.widest (parent + 1).toNat) 1
    let (text, lead, gap, c) ← blockLines literal since indent (c.rest.length + 1) c [] [] gap false
    let text := match chomping with
      | .strip => text
      | .clip => text ++ lead
      | .keep => text ++ lead ++ gap.breaks
    return (⟨.scalar (String.ofList text) false, since, gap.stop⟩, c)

end CommandMenu.Yaml
