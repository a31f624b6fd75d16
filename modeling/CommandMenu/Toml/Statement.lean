import CommandMenu.Toml.Failure
import CommandMenu.Toml.Token

/-! # The statements of a TOML text

A text consists of headers and of keys with values, a line for each.  Here only their order is
looked at; what words and quoted texts mean is settled by `Toml.Document`.

* `Statement` is a header or a key with its value.
* `Statement.list` are the statements of a text.

A key or a value that is missing may be taken as an empty word, which has no meaning; the text is
then refused for that word, unless something else is wrong with the order of its tokens.
-/

namespace CommandMenu.Toml

/-- Words or a quoted text as written. -/
structure Atom extends Excerpt where
  quoting : Option Quoting
deriving Repr, Inhabited

/-- The empty word in front of a token, for a key or a value that is missing there. -/
def Atom.absent (t : Token) : Atom := ⟨⟨t.start, []⟩, none⟩

/-- Whether a key or a value is missing. -/
def Atom.isAbsent (a : Atom) : Bool := a.quoting.isNone && a.isEmpty

/-- A value as written. -/
inductive Written where
  | atom (atom : Atom)
  | list (items : List Written) (span : Span)
  | inline (entries : List (List Atom × Written)) (span : Span)
deriving Repr, Inhabited

/-- Whether a value is missing. -/
def Written.isAbsent : Written → Bool
  | .atom a => a.isAbsent
  | _ => false

/-- A line of a text. -/
inductive Statement where
  | header (ofList : Bool) (path : List Atom) (span : Span)
  | entry (path : List Atom) (value : Written)
deriving Repr

namespace Statement

/-- How deep lists and tables in braces may nest. -/
def maxDepth : Nat := 80

/-! ### Tokens in front -/

/-- The tokens that are still to be read, and the end of the last token that was more than
layout. -/
structure Rest where
  tokens : List Token
  last : Nat

namespace Rest

/-- The next token. -/
def peek (r : Rest) : Token := r.tokens.headD ⟨⟨r.last, []⟩, .finish⟩

/-- Drops the next token. -/
def pop (r : Rest) : Rest :=
  ⟨r.tokens.drop 1, if r.peek.isLayout then r.last else r.peek.span.stop⟩

/-- An upper bound of the number of tokens. -/
def size (r : Rest) : Nat := r.tokens.length

/-- The place behind the last token that was more than layout. -/
def behind (r : Rest) : Span := .point r.last

/-- Moves over the tokens of some kinds. -/
def skip (p : Token.Kind → Bool) (r : Rest) : Rest :=
  ⟨r.tokens.dropWhile fun t => p t.kind, r.last⟩

/-- Moves over blanks. -/
def skipBlanks (r : Rest) : Rest := r.skip (· = .blank)

/-- Moves to the end of the line or to the comment in front of it. -/
def skipLine (r : Rest) : Rest :=
  r.skip fun k => k ≠ .comment && k ≠ .newline && k ≠ .finish

end Rest

/-- Whether a character may stand in a comment. -/
def isCommentChar (c : Char) : Bool := c == '\t' || (0x20 ≤ c.toNat && c.toNat != 0x7F)

/-- Checks a comment or the end of a line. -/
def checkLayout (t : Token) : Except Failure Unit :=
  if t.kind = .comment then
    let bad := t.skip isCommentChar
    if bad.isEmpty then .ok () else refuse .badComment bad.span.before
  else if t.kind = .newline && t.text = ['\r'] then refuse .loneReturn t.span.behind
  else .ok ()

/-! ### Keys -/

/-- Reads a key; where there is none, it is missing. -/
def readKey (r : Rest) : Atom × Rest :=
  let t := r.peek
  match t.kind with
  | .quoted q => (⟨t.toExcerpt, some q⟩, r.pop)
  | .word => (⟨t.toExcerpt, none⟩, r.pop)
  | _ => (.absent t, r)

/-- Reads the keys behind the first one, each behind a point. -/
def readMoreKeys : Nat → Rest → List Atom × Rest
  | 0, r => ([], r)
  | n + 1, r =>
    let r := r.skipBlanks
    if r.peek.kind = .dot then
      let (key, r) := readKey r.pop.skipBlanks
      let (keys, r) := readMoreKeys n r
      (key :: keys, r)
    else ([], r)

/-- Reads keys with points between them. -/
def readPath (r : Rest) : List Atom × Rest :=
  let (key, r) := readKey r
  let (keys, r) := readMoreKeys r.size r
  (key :: keys, r)

/-! ### Values -/

/-- Whether a token belongs to an unquoted value. -/
def isWordPart (t : Token) : Bool := t.kind = .word || t.kind = .dot

/-- Adds the words and points ahead to an unquoted value, with the blanks between them. -/
def readWords : Nat → Excerpt → Rest → Atom × Rest
  | 0, e, r => (⟨e, none⟩, r)
  | n + 1, e, r =>
    let next := r.skipBlanks
    if isWordPart next.peek then
      let blanks := if r.peek.kind = .blank then r.peek.text else []
      readWords n ⟨e.start, e.text ++ blanks ++ next.peek.text⟩ next.pop
    else (⟨e, none⟩, r)

/-- How far an entry in braces was read. -/
inductive Progress where
  | fresh
  | keyed (path : List Atom)
  | assigned (path : List Atom)
  | complete

/-- What an entry in braces needs next. -/
def Progress.next : Progress → EntryPart
  | .fresh => .key
  | .keyed _ => .equals
  | .assigned _ => .value
  | .complete => .comma

/-- The entry that ends at a closing brace, if it is not complete.  In place of its value stands a
text without quotes. -/
def Progress.cut (t : Token) : Progress → List (List Atom × Written)
  | .keyed path | .assigned path => [(path, .atom ⟨⟨t.start, []⟩, some .literal⟩)]
  | .fresh | .complete => []

mutual

/-- Reads a value.  `depth` is how many levels of lists and tables in braces may still be
opened. -/
def readValue : Nat → (depth : Nat) → Rest → Except Failure (Written × Rest)
  | 0, _, r => refuse .unclosedList r.behind
  | n + 1, depth, r =>
    let t := r.peek
    match t.kind, depth with
    | .quoted q, _ => .ok (.atom ⟨t.toExcerpt, some q⟩, r.pop)
    | .word, _ | .dot, _ =>
      let (a, r) := readWords r.size t.toExcerpt r.pop
      .ok (.atom a, r)
    | .openBracket, depth + 1 => readItems n depth t true [] r.pop
    | .openBrace, depth + 1 => readEntries n depth t .fresh [] r.pop
    | .openBracket, 0 | .openBrace, 0 => refuse .deepNesting t.span
    | .closeBracket, _ => refuse .missingListStart t.span.before
    | .closeBrace, _ => refuse .missingInlineStart t.span.before
    | .equals, _ => refuse .extraEquals t.span
    | .comma, _ | .comment, _ | .newline, _ | .blank, _ | .finish, _ => .ok (.atom (.absent t), r)

/-- Reads the items of a list behind its bracket.  `free` tells that no comma is missing. -/
def readItems : Nat → (depth : Nat) → (opening : Token) → (free : Bool) → List Written → Rest →
    Except Failure (Written × Rest)
  | 0, _, _, _, _, r => refuse .unclosedList r.behind
  | n + 1, depth, opening, free, out, r => do
    let t := r.peek
    match t.kind with
    | .finish => refuse .unclosedList r.behind
    | .blank => readItems n depth opening free out r.pop
    | .comment | .newline =>
      checkLayout t
      readItems n depth opening free out r.pop
    | .closeBracket => return (.list out.reverse (opening.span.through t.span), r.pop)
    | .comma =>
      if free then refuse .extraCommaInList t.span else readItems n depth opening true out r.pop
    | .equals => refuse .equalsInList t.span
    | _ =>
      if free then
        let (v, r) ← readValue n depth r
        readItems n depth opening false (v :: out) r
      else refuse .missingCommaInList t.span.before

/-- Reads the entries of a table in braces behind its brace. -/
def readEntries : Nat → (depth : Nat) → (opening : Token) → Progress →
    List (List Atom × Written) → Rest → Except Failure (Written × Rest)
  | 0, _, _, _, _, r => refuse .unclosedInline r.behind
  | n + 1, depth, opening, progress, out, r => do
    let t := r.peek
    let misplaced (problem : EntryProblem) : Except Failure (Written × Rest) :=
      refuse (.entry problem progress.next) t.span.before
    match t.kind with
    | .finish => refuse .unclosedInline r.behind
    | .blank => readEntries n depth opening progress out r.pop
    | .comment | .newline =>
      checkLayout t
      readEntries n depth opening progress out r.pop
    | .closeBrace =>
      return (.inline (progress.cut t ++ out).reverse (opening.span.through t.span), r.pop)
    | .comma =>
      match progress with
      | .complete => readEntries n depth opening .fresh out r.pop
      | _ => misplaced .extraComma
    | .equals =>
      match progress with
      | .fresh => readEntries n depth opening (.assigned [.absent t]) out r.pop
      | .keyed path => readEntries n depth opening (.assigned path) out r.pop
      | .assigned _ | .complete => misplaced .extraEquals
    | .closeBracket =>
      match progress with
      | .assigned _ => refuse .missingListStart t.span.before
      | _ => misplaced .misplacedBracket
    | .openBracket | .openBrace =>
      match progress with
      | .assigned path =>
        let (v, r) ← readValue n depth r
        readEntries n depth opening .complete ((path, v) :: out) r
      | .keyed _ => misplaced .missingEquals
      | .fresh | .complete => misplaced .missingKey
    | .quoted _ | .word | .dot =>
      match progress with
      | .fresh =>
        let (path, r) := readPath r
        readEntries n depth opening (.keyed path) out r
      | .keyed _ => misplaced .missingEquals
      | .assigned path =>
        let (v, r) ← readValue n depth r
        readEntries n depth opening .complete ((path, v) :: out) r
      | .complete => misplaced .missingComma

end

/-! ### Lines -/

/-- Reads the rest of a line, on which nothing but a comment may stand. -/
def readLineEnd (r : Rest) : Except Failure Rest := do
  let r := r.skipBlanks
  let t := r.peek
  match t.kind with
  | .comment => do
    checkLayout t
    return r.pop
  | .newline | .finish => return r
  | _ => refuse .unexpectedText t.span.before

/-- Reads a header behind its first bracket.  One whose last key is missing need not be closed. -/
def readHeader (opening : Token) (r : Rest) : Except Failure (Statement × Rest) := do
  let ofList := r.peek.kind = .openBracket
  let (path, r) := readPath (if ofList then r.pop else r).skipBlanks
  let header (r : Rest) : Statement := .header ofList path (opening.span.through r.peek.span)
  if r.peek.kind ≠ .closeBracket then
    if path.getLast?.any (·.isAbsent) then return (header r, r.skipLine)
    else refuse (if ofList then .unclosedTableOfList else .unclosedTable) r.behind
  else if !ofList then return (header r, r.pop)
  else if r.pop.peek.kind ≠ .closeBracket then refuse .halfClosedTableOfList r.peek.span.behind
  else return (header r.pop, r.pop.pop)

/-- Reads the value of a key and its equals sign.  Behind a value that is missing, the line does not
count. -/
def readDefinition (path : List Atom) (r : Rest) : Except Failure (Statement × Rest) := do
  let (v, r) ← readValue (2 * r.size + 2) maxDepth r.pop.skipBlanks
  return (.entry path v, if v.isAbsent then r.skipLine else r)

/-- Reads a key with its value. -/
def readEntry (r : Rest) : Except Failure (Statement × Rest) :=
  let first := r.peek
  let (path, r) := readPath r
  if r.peek.kind = .equals then readDefinition path r
  else refuse (if first.kind = .dot then .missingValue else .keyWithoutValue) r.peek.span.before

/-- Reads the statements of a text. -/
def readAll : Nat → Rest → List Statement → Except Failure (List Statement)
  | 0, _, out => .ok out.reverse
  | n + 1, r, out => do
    let t := r.peek
    match t.kind with
    | .finish => return out.reverse
    | .blank => readAll n r.pop out
    | .newline | .comment =>
      checkLayout t
      readAll n r.pop out
    | .openBracket =>
      let (s, r) ← readHeader t r.pop
      readAll n (← readLineEnd r) (s :: out)
    | .closeBracket => refuse .missingTableStart t.span.before
    | .comma | .openBrace | .closeBrace => refuse .missingKey t.span.before
    | .equals | .dot | .word | .quoted _ =>
      let (s, r) ← readEntry r
      readAll n (← readLineEnd r) (s :: out)

/-- The statements of a text. -/
def list (text : String) : Except Failure (List Statement) :=
  let tokens := Token.list text
  readAll (tokens.length + 1) ⟨tokens, 0⟩ []

end Statement
end CommandMenu.Toml
