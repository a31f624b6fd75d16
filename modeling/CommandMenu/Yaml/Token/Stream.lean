import CommandMenu.Yaml.Token.Property

/-! # The token stream of a YAML text

Tokens are read one after the other, with two complications.  A colon may turn a token that was
read before into the key of a mapping, so a token that may still become a key is held back until
that is settled.  And indentation opens and closes block collections.

* `Stream` is the state between two tokens; `Stream.ofText` starts it.
* `Stream.advance` reads on by one sign of the text, `Stream.peek` yields the next token.
* `Stream.pop` drops the token that `peek` yielded.
-/

namespace CommandMenu.Yaml

/-- A place where a key without indicator may have started.  It is required if the token stands at
the indentation of the current block mapping. -/
structure KeyCandidate where
  required : Bool
  number : Nat
  mark : Mark
deriving Repr

/-- The state of reading tokens.  `queue` holds the tokens that were read and not yet taken, `taken`
counts those taken.  There is a place for a key candidate for each open flow collection and one for
the block level; the innermost comes first. -/
structure Stream where
  cursor : Cursor
  queue : List Placed := []
  taken : Nat := 0
  indent : Int := -1
  indents : List Int := []
  candidates : List (Option KeyCandidate) := [none]
  keyAllowed : Bool := true
  flow : Nat := 0
  ended : Bool := false

namespace Stream

/-- The stream of a whole text. -/
def ofText (text : List Char) : Stream := { cursor := ⟨text, Mark.start⟩ }

/-- The mark of the next character. -/
def mark (s : Stream) : Mark := s.cursor.mark

/-- Whether the innermost collection is a flow collection. -/
def inFlow (s : Stream) : Bool := s.flow != 0

/-- Appends a token. -/
def push (s : Stream) (p : Placed) : Stream := { s with queue := s.queue ++ [p] }

/-- Inserts a token in front of the token with the given number. -/
def pushAt (s : Stream) (number : Nat) (p : Placed) : Stream :=
  let i := number - s.taken
  { s with queue := s.queue.take i ++ p :: s.queue.drop i }

/-- Appends an indicator of `n` characters and moves over it. -/
def pushSign (s : Stream) (token : Token) (n : Nat) : Stream :=
  let next := s.cursor.skip n
  { s with cursor := next, queue := s.queue ++ [⟨token, s.mark, next.mark⟩] }

/-! ### Key candidates -/

/-- Refuses the text because a required key has no colon. -/
def refuseCandidate {α : Type} (s : Stream) (k : KeyCandidate) : Except Failure α :=
  .error (.malformed .missingColon s.mark (some (.simpleKey, k.mark)))

/-- Whether a candidate is over: a key without indicator stays on its line and is at most 1024
octets long. -/
def isStale (s : Stream) (k : KeyCandidate) : Bool :=
  k.mark.line < s.mark.line || k.mark.index + 1024 < s.mark.index

/-- Drops the candidates that are over. -/
def dropStale (s : Stream) : Except Failure Stream := do
  match s.candidates.reverse.findSome? fun k? => k?.filter fun k => s.isStale k && k.required with
  | some k => s.refuseCandidate k
  | none =>
    let candidates := s.candidates.map fun k? => k?.filter fun k => !s.isStale k
    return { s with candidates }

/-- Drops the innermost candidate. -/
def dropCandidate (s : Stream) : Except Failure Stream :=
  match s.candidates with
  | some k :: rest =>
    if k.required then s.refuseCandidate k else .ok { s with candidates := none :: rest }
  | _ => .ok s

/-- Notes that the next token may be a key, where a key may start. -/
def noteCandidate (s : Stream) : Except Failure Stream := do
  if !s.keyAllowed then return s
  else
    let s ← s.dropCandidate
    let k : KeyCandidate :=
      { required := !s.inFlow && s.indent == (s.mark.column : Int)
        number := s.taken + s.queue.length
        mark := s.mark }
    return { s with candidates := some k :: s.candidates.drop 1 }

/-! ### Indentation -/

/-- Opens a block collection at a column that is deeper than the current one.  Its token goes to
the end, or in front of the token with the given number. -/
def indentTo (s : Stream) (column : Nat) (number? : Option Nat) (token : Token) (place : Mark) :
    Stream :=
  if s.inFlow || !(s.indent < (column : Int)) then s
  else
    let s := { s with indents := s.indent :: s.indents, indent := column }
    let p : Placed := ⟨token, place, place⟩
    match number? with
    | some n => s.pushAt n p
    | none => s.push p

/-- Closes the block collections that are deeper than the column, given the enclosing columns. -/
def closeBlocks (s : Stream) (column : Int) : List Int → Stream
  | [] => s
  | outer :: rest =>
    if s.indent > column then
      let s := s.push ⟨.blockEnd, s.mark, s.mark⟩
      closeBlocks { s with indent := outer, indents := rest } column rest
    else s

/-- Closes the block collections that are deeper than the column; flow collections have none. -/
def unindentTo (s : Stream) (column : Int) : Stream :=
  if s.inFlow then s else s.closeBlocks column s.indents

/-! ### Reading one sign -/

/-- Moves over blanks, comments and line breaks.  A tab does not count as a blank where a key may
start in the block context. -/
def skipGap (s : Stream) : Nat → Stream
  | 0 => s
  | n + 1 =>
    let c := s.cursor
    let c := if c.mark.column == 0 && c.sees '\uFEFF' then c.skip 1 else c
    let c := c.skipWhile fun x => x == ' ' || ((s.inFlow || !s.keyAllowed) && x == '\t')
    let c := if c.sees '#' then c.skipWhile fun x => !isBreak x else c
    if c.isBreakAt 0 then
      skipGap { s with cursor := c.skipBreak, keyAllowed := s.keyAllowed || !s.inFlow } n
    else { s with cursor := c }

/-- Closes everything at the end of the text, which counts as the start of a line. -/
def finish (s : Stream) : Except Failure Stream := do
  let m := s.mark
  let m := if m.column == 0 then m else { m with line := m.line + 1, column := 0 }
  let s := { s with cursor := { s.cursor with mark := m } }
  let s ← (s.unindentTo (-1)).dropCandidate
  return { s.push ⟨.streamEnd, m, m⟩ with keyAllowed := false, ended := true }

/-- Reads a directive. -/
def takeDirective (s : Stream) : Except Failure Stream := do
  let s ← (s.unindentTo (-1)).dropCandidate
  let (p, next) ← scanDirective s.cursor
  return { s.push p with keyAllowed := false, cursor := next }

/-- Reads a sign between documents. -/
def takeDocumentMark (s : Stream) (token : Token) : Except Failure Stream := do
  let s ← (s.unindentTo (-1)).dropCandidate
  return { s with keyAllowed := false }.pushSign token 3

/-- Opens a flow collection. -/
def openFlow (s : Stream) (token : Token) : Except Failure Stream := do
  let s ← s.noteCandidate
  let s := { s with candidates := none :: s.candidates, flow := s.flow + 1, keyAllowed := true }
  return s.pushSign token 1

/-- Closes a flow collection. -/
def closeFlow (s : Stream) (token : Token) : Except Failure Stream := do
  let s ← s.dropCandidate
  let s := if s.inFlow then { s with flow := s.flow - 1, candidates := s.candidates.drop 1 } else s
  return { s with keyAllowed := false }.pushSign token 1

/-- Reads a comma. -/
def takeComma (s : Stream) : Except Failure Stream := do
  let s ← s.dropCandidate
  return { s with keyAllowed := true }.pushSign .flowEntry 1

/-- Refuses a sign that may not stand here. -/
def refuseSign {α : Type} (s : Stream) (problem : Problem) : Except Failure α :=
  .error (.malformed problem s.mark none)

/-- Reads a hyphen that starts an entry. -/
def takeEntry (s : Stream) : Except Failure Stream := do
  if !s.inFlow && !s.keyAllowed then s.refuseSign .entryNotAllowed
  else
    let s ← (s.indentTo s.mark.column none .blockSequenceStart s.mark).dropCandidate
    return { s with keyAllowed := true }.pushSign .blockEntry 1

/-- Reads a question mark that starts a key. -/
def takeKey (s : Stream) : Except Failure Stream := do
  if !s.inFlow && !s.keyAllowed then s.refuseSign .keyNotAllowed
  else
    let s ← (s.indentTo s.mark.column none .blockMappingStart s.mark).dropCandidate
    return { s with keyAllowed := !s.inFlow }.pushSign .key 1

/-- Reads a colon.  If the token in front of it may be a key, it becomes one. -/
def takeColon (s : Stream) : Except Failure Stream := do
  match s.candidates with
  | some k :: rest =>
    let s := s.pushAt k.number ⟨.key, k.mark, k.mark⟩
    let s := s.indentTo k.mark.column (some k.number) .blockMappingStart k.mark
    return { s with candidates := none :: rest, keyAllowed := false }.pushSign .value 1
  | _ =>
    if !s.inFlow && !s.keyAllowed then s.refuseSign .valueNotAllowed
    else
      let s := s.indentTo s.mark.column none .blockMappingStart s.mark
      return { s with keyAllowed := !s.inFlow }.pushSign .value 1

/-- Reads a token that may be a key. -/
def takeKeyable (s : Stream) (scan : Cursor → Scanned) : Except Failure Stream := do
  let s ← s.noteCandidate
  let (p, next) ← scan s.cursor
  return { s.push p with keyAllowed := false, cursor := next }

/-- Reads a block scalar. -/
def takeBlock (s : Stream) (literal : Bool) : Except Failure Stream := do
  let s ← s.dropCandidate
  let (p, next) ← scanBlock literal s.indent s.cursor
  return { s.push p with keyAllowed := true, cursor := next }

/-- Reads a plain scalar.  A key may start behind one that ends with a line break. -/
def takePlain (s : Stream) : Except Failure Stream := do
  let s ← s.noteCandidate
  let (p, broken, next) ← scanPlain s.inFlow (s.indent + 1) s.cursor
  return { s.push p with keyAllowed := broken, cursor := next }

/-- The characters that do not start a plain scalar. -/
def isIndicator (x : Char) : Bool :=
  isSpaceOrTab x || isBreak x || x == '-' || x == '?' || x == ':' || isFlowIndicator x ||
    x == '#' || x == '&' || x == '*' || x == '!' || x == '|' || x == '>' || x == '\'' ||
    x == '"' || x == '%' || x == '@' || x == '\x60'

/-- Whether a plain scalar starts at the cursor.  A hyphen may start one if no blank follows it, and
outside of flow collections so may a question mark or a colon. -/
def startsPlain (s : Stream) : Bool :=
  match s.cursor.rest with
  | [] => false
  | x :: _ =>
    !isIndicator x || (x == '-' && !s.cursor.isBlankAt 1) ||
      (!s.inFlow && (x == '?' || x == ':') && !s.cursor.isGapAt 1)

/-- Reads the sign at the cursor, which stands behind a gap. -/
def takeSign (s : Stream) : Except Failure Stream :=
  let c := s.cursor
  let free := s.inFlow || c.isGapAt 1
  if c.atEnd then s.finish
  else if c.mark.column == 0 && c.sees '%' then s.takeDirective
  else if c.seesDocumentMark '-' then s.takeDocumentMark .documentStart
  else if c.seesDocumentMark '.' then s.takeDocumentMark .documentEnd
  else if c.sees '[' then s.openFlow .flowSequenceStart
  else if c.sees '{' then s.openFlow .flowMappingStart
  else if c.sees ']' then s.closeFlow .flowSequenceEnd
  else if c.sees '}' then s.closeFlow .flowMappingEnd
  else if c.sees ',' then s.takeComma
  else if c.sees '-' && c.isGapAt 1 then s.takeEntry
  else if c.sees '?' && free then s.takeKey
  else if c.sees ':' && free then s.takeColon
  else if c.sees '*' then s.takeKeyable (scanName true)
  else if c.sees '&' then s.takeKeyable (scanName false)
  else if c.sees '!' then s.takeKeyable (scanTag s.inFlow)
  else if c.sees '|' && !s.inFlow then s.takeBlock true
  else if c.sees '>' && !s.inFlow then s.takeBlock false
  else if c.sees '\'' then s.takeKeyable (scanQuoted true)
  else if c.sees '"' then s.takeKeyable (scanQuoted false)
  else if s.startsPlain then s.takePlain
  else c.refuse .noToken .nextToken c.mark

/-- Reads on by one sign: gaps, closed collections, and the sign itself. -/
def advance (s : Stream) : Except Failure Stream := do
  let s ← (s.skipGap (s.cursor.rest.length + 1)).dropStale
  (s.unindentTo s.mark.column).takeSign

/-- Whether the first token of the queue may still become a key. -/
def isPending (s : Stream) : Bool :=
  s.candidates.any fun k? => k?.any fun k => k.number == s.taken

/-- Reads on until the first token of the queue is settled. -/
def settle : Nat → Stream → Except Failure Stream
  | 0, s => .ok s
  | n + 1, s =>
    if s.ended && s.queue.isEmpty then .ok s
    else if s.queue.isEmpty then do settle n (← s.advance)
    else do
      let s ← s.dropStale
      if s.isPending then settle n (← s.advance) else return s

/-- The next token, which is the end of the stream again and again once that was read. -/
def peek (s : Stream) : Except Failure (Placed × Stream) := do
  let s ← s.settle (s.cursor.rest.length + 2)
  return (s.queue.headD ⟨.streamEnd, s.mark, s.mark⟩, s)

/-- Drops the first token. -/
def pop (s : Stream) : Stream := { s with queue := s.queue.drop 1, taken := s.taken + 1 }

end Stream

end CommandMenu.Yaml
