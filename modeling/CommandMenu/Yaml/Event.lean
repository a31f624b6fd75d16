import CommandMenu.Yaml.Token.Stream

/-! # The events of a YAML document

The grammar of YAML over its tokens: a document as the sequence of its scalars, aliases, and starts
and ends of collections.

* `Event` is the type.
* `Grammar` is the state between two events, with a stack of what is expected next.
* `Events.ofText` are the events of the first document of a text; they end early where the text is
  refused, and a flag tells whether anything follows the document.
-/

namespace CommandMenu.Yaml

/-- An event of a document, with the mark where it starts. -/
inductive Event where
  | alias (name : String) (mark : Mark)
  | scalar (anchor : Option String) (tag : Option Tag) (text : String) (plain : Bool) (mark : Mark)
  | sequenceStart (anchor : Option String) (tag : Option Tag) (mark : Mark)
  | sequenceEnd
  | mappingStart (anchor : Option String) (tag : Option Tag) (mark : Mark)
  | mappingEnd
deriving Repr

/-- What is expected next.  `since` is the start of the collection, for messages; `first` tells that
no entry of the flow collection was read yet. -/
inductive Expectation where
  | documentEnd
  | documentContent
  | blockNode
  | blockEntry (since : Mark)
  | indentlessEntry
  | blockKey (since : Mark)
  | blockValue (since : Mark)
  | flowEntry (since : Mark) (first : Bool)
  | pairKey (since : Mark)
  | pairValue (since : Mark)
  | pairEnd (since : Mark)
  | flowKey (since : Mark) (first : Bool)
  | flowValue (since : Mark)
  | flowEmptyValue (since : Mark)

/-- The state of the grammar: the tokens to come, what is expected (the innermost first), and the
tag handles with what they stand for. -/
structure Grammar where
  stream : Stream
  expected : List Expectation
  handles : List (String × Tag)

namespace Grammar

/-- The handles that every document knows. -/
def standardHandles : List (String × Tag) :=
  [("!", ⟨[Tag.mark]⟩), ("!!", Tag.ofString "tag:yaml.org,2002:")]

/-- The next token. -/
def peek (g : Grammar) : Except Failure (Placed × Grammar) := do
  let (p, s) ← g.stream.peek
  return (p, { g with stream := s })

/-- Drops the next token. -/
def pop (g : Grammar) : Grammar := { g with stream := g.stream.pop }

/-- Expects something in front of all that was expected. -/
def expect (g : Grammar) (e : Expectation) : Grammar := { g with expected := e :: g.expected }

/-- Refuses the text at a token inside a collection. -/
def refuse {α : Type} (problem : Problem) (spot : Mark) (setting : Setting) (since : Mark) :
    Except Failure α :=
  .error (.malformed problem spot (some (setting, since)))

/-- The event of an empty plain scalar. -/
def emptyScalar (mark : Mark) : Event := .scalar none none "" true mark

/-! ### Nodes -/

/-- Anchor and tag in front of a node. -/
structure Properties where
  anchor : Option String := none
  tag : Option (String × Tag × Mark) := none
  start : Option Mark := none

/-- Reads anchor and tag in either order. -/
def properties (g : Grammar) : Except Failure (Properties × Grammar) := do
  let (p, g) ← g.peek
  match p.token with
  | .anchor name =>
    let (q, g) ← g.pop.peek
    match q.token with
    | .tag handle suffix =>
      let tag := some (handle, suffix, q.start)
      return ({ anchor := some name, tag := tag, start := some p.start }, g.pop)
    | _ => return ({ anchor := some name, start := some p.start }, g)
  | .tag handle suffix =>
    let (q, g) ← g.pop.peek
    let tag := some (handle, suffix, p.start)
    match q.token with
    | .anchor name => return ({ anchor := some name, tag := tag, start := some p.start }, g.pop)
    | _ => return ({ tag := tag, start := some p.start }, g)
  | _ => return ({}, g)

/-- The full text of a tag; a tag without a handle is full already. -/
def resolveTag (g : Grammar) (start : Mark) :
    Option (String × Tag × Mark) → Except Failure (Option Tag)
  | none => .ok none
  | some (handle, suffix, mark) =>
    if handle.isEmpty then .ok (some (Tag.join .empty suffix))
    else match g.handles.find? fun e => e.1 == handle with
      | some (_, lead) => .ok (some (lead.join suffix))
      | none => refuse .undefinedTagHandle mark .node start

/-- Reads the start of a node.  Block collections are possible only where `block` is true, and a
sequence at the indentation of its key only where `indentless` is. -/
def node (g : Grammar) (block indentless : Bool) : Except Failure (Event × Grammar) := do
  let (p, g) ← g.peek
  match p.token with
  | .alias name => return (.alias name p.start, g.pop)
  | _ =>
    let (props, g) ← g.properties
    let (q, g) ← g.peek
    let start := props.start.getD q.start
    let tag ← g.resolveTag start props.tag
    match q.token with
    | .scalar text plain =>
      return (.scalar props.anchor tag text plain start, g.pop)
    | .flowSequenceStart =>
      return (.sequenceStart props.anchor tag start, g.pop.expect (.flowEntry q.start true))
    | .flowMappingStart =>
      return (.mappingStart props.anchor tag start, g.pop.expect (.flowKey q.start true))
    | token =>
      if token == .blockEntry && indentless then
        return (.sequenceStart props.anchor tag start, g.expect .indentlessEntry)
      else if token == .blockSequenceStart && block then
        return (.sequenceStart props.anchor tag start, g.pop.expect (.blockEntry q.start))
      else if token == .blockMappingStart && block then
        return (.mappingStart props.anchor tag start, g.pop.expect (.blockKey q.start))
      else if props.anchor.isSome || tag.isSome then
        return (.scalar props.anchor tag "" true start, g)
      else refuse .missingContent q.start (if block then .blockNode else .flowNode) start

/-! ### Block collections -/

/-- Reads on in a block sequence. -/
def blockEntry (g : Grammar) (since : Mark) : Except Failure (Event × Grammar) := do
  let (p, g) ← g.peek
  match p.token with
  | .blockEntry =>
    let (q, g) ← g.pop.peek
    let g := g.expect (.blockEntry since)
    match q.token with
    | .blockEntry | .blockEnd => return (emptyScalar p.stop, g)
    | _ => g.node true false
  | .blockEnd => return (.sequenceEnd, g.pop)
  | _ => refuse .missingDash p.start .blockCollection since

/-- Reads on in a sequence at the indentation of its key. -/
def indentlessEntry (g : Grammar) : Except Failure (Event × Grammar) := do
  let (p, g) ← g.peek
  match p.token with
  | .blockEntry =>
    let (q, g) ← g.pop.peek
    let g := g.expect .indentlessEntry
    match q.token with
    | .blockEntry | .key | .value | .blockEnd => return (emptyScalar p.stop, g)
    | _ => g.node true false
  | _ => return (.sequenceEnd, g)

/-- Reads on in a block mapping, at a key. -/
def blockKey (g : Grammar) (since : Mark) : Except Failure (Event × Grammar) := do
  let (p, g) ← g.peek
  match p.token with
  | .key =>
    let (q, g) ← g.pop.peek
    let g := g.expect (.blockValue since)
    match q.token with
    | .key | .value | .blockEnd => return (emptyScalar p.stop, g)
    | _ => g.node true true
  | .blockEnd => return (.mappingEnd, g.pop)
  | _ => refuse .missingKey p.start .blockMapping since

/-- Reads on in a block mapping, at a value. -/
def blockValue (g : Grammar) (since : Mark) : Except Failure (Event × Grammar) := do
  let (p, g) ← g.peek
  let g := g.expect (.blockKey since)
  match p.token with
  | .value =>
    let (q, g) ← g.pop.peek
    match q.token with
    | .key | .value | .blockEnd => return (emptyScalar p.stop, g)
    | _ => g.node true true
  | _ => return (emptyScalar p.start, g)

/-! ### Flow collections -/

/-- Reads the comma that separates an entry of a flow collection from the one before. -/
def comma (g : Grammar) (first : Bool) (close : Token) (problem : Problem) (setting : Setting)
    (since : Mark) : Except Failure (Placed × Grammar) := do
  let (p, g) ← g.peek
  if first || p.token == close then return (p, g)
  else if p.token == .flowEntry then g.pop.peek
  else refuse problem p.start setting since

/-- Reads on in a flow sequence.  An entry with a key is a mapping of its own. -/
def flowEntry (g : Grammar) (since : Mark) (first : Bool) : Except Failure (Event × Grammar) := do
  let (p, g) ← g.comma first .flowSequenceEnd .missingSequenceEnd .flowSequence since
  match p.token with
  | .flowSequenceEnd => return (.sequenceEnd, g.pop)
  | .key => return (.mappingStart none none p.start, g.pop.expect (.pairKey since))
  | _ => (g.expect (.flowEntry since false)).node false false

/-- Reads the key of a single pair in a flow sequence.  Where there is none, the token that stands
there is dropped. -/
def pairKey (g : Grammar) (since : Mark) : Except Failure (Event × Grammar) := do
  let (p, g) ← g.peek
  let g := g.expect (.pairValue since)
  match p.token with
  | .value | .flowEntry | .flowSequenceEnd => return (emptyScalar p.stop, g.pop)
  | _ => g.node false false

/-- Reads the value of a single pair in a flow sequence. -/
def pairValue (g : Grammar) (since : Mark) : Except Failure (Event × Grammar) := do
  let (p, g) ← g.peek
  let g := g.expect (.pairEnd since)
  match p.token with
  | .value =>
    let (q, g) ← g.pop.peek
    match q.token with
    | .flowEntry | .flowSequenceEnd => return (emptyScalar q.start, g)
    | _ => g.node false false
  | _ => return (emptyScalar p.start, g)

/-- Reads on in a flow mapping, at a key. -/
def flowKey (g : Grammar) (since : Mark) (first : Bool) : Except Failure (Event × Grammar) := do
  let (p, g) ← g.comma first .flowMappingEnd .missingMappingEnd .flowMapping since
  match p.token with
  | .flowMappingEnd => return (.mappingEnd, g.pop)
  | .key =>
    let (q, g) ← g.pop.peek
    let g := g.expect (.flowValue since)
    match q.token with
    | .value | .flowEntry | .flowMappingEnd => return (emptyScalar q.start, g)
    | _ => g.node false false
  | _ => (g.expect (.flowEmptyValue since)).node false false

/-- Reads on in a flow mapping, at a value. -/
def flowValue (g : Grammar) (since : Mark) : Except Failure (Event × Grammar) := do
  let (p, g) ← g.peek
  let g := g.expect (.flowKey since false)
  match p.token with
  | .value =>
    let (q, g) ← g.pop.peek
    match q.token with
    | .flowEntry | .flowMappingEnd => return (emptyScalar q.start, g)
    | _ => g.node false false
  | _ => return (emptyScalar p.start, g)

/-! ### Documents -/

/-- Reads the content of a document behind its start sign, which may be empty. -/
def documentContent (g : Grammar) : Except Failure (Event × Grammar) := do
  let (p, g) ← g.peek
  match p.token with
  | .versionDirective .. | .tagDirective .. | .documentStart | .documentEnd | .streamEnd =>
    return (emptyScalar p.start, g)
  | _ => g.node true false

/-- The next event of the document, or none at its end. -/
def next (g : Grammar) : Except Failure (Option Event × Grammar) :=
  let produced (r : Except Failure (Event × Grammar)) : Except Failure (Option Event × Grammar) :=
    r.map fun (e, g) => (some e, g)
  match g.expected with
  | [] => .ok (none, g)
  | e :: rest =>
    let g := { g with expected := rest }
    match e with
    | .documentEnd => do
      let (p, g) ← g.peek
      return (none, if p.token == .documentEnd then g.pop else g)
    | .documentContent => produced g.documentContent
    | .blockNode => produced (g.node true false)
    | .blockEntry since => produced (g.blockEntry since)
    | .indentlessEntry => produced g.indentlessEntry
    | .blockKey since => produced (g.blockKey since)
    | .blockValue since => produced (g.blockValue since)
    | .flowEntry since first => produced (g.flowEntry since first)
    | .pairKey since => produced (g.pairKey since)
    | .pairValue since => produced (g.pairValue since)
    | .pairEnd since => do
      let (_, g) ← g.peek
      return (some .mappingEnd, g.expect (.flowEntry since false))
    | .flowKey since first => produced (g.flowKey since first)
    | .flowValue since => produced (g.flowValue since)
    | .flowEmptyValue since => do
      let (p, g) ← g.peek
      return (some (emptyScalar p.start), g.expect (.flowKey since false))

/-- Reads the directives in front of a document. -/
def directives : Nat → (hasVersion : Bool) → Grammar → Except Failure (Placed × Grammar)
  | 0, _, g => g.peek
  | n + 1, hasVersion, g => do
    let (p, g) ← g.peek
    match p.token with
    | .versionDirective major minor =>
      if hasVersion then .error (.malformed .duplicateVersionDirective p.start none)
      else if major != 1 || (minor != 1 && minor != 2) then
        .error (.malformed .incompatibleVersion p.start none)
      else directives n true g.pop
    | .tagDirective handle lead =>
      if g.handles.any fun e => e.1 == handle then
        .error (.malformed .duplicateTagDirective p.start none)
      else directives n hasVersion { g.pop with handles := g.handles ++ [(handle, lead)] }
    | _ => return (p, g)

/-- Starts the first document, if there is one.  Without directives and without a start sign it
starts with its content. -/
def start? (g : Grammar) : Except Failure (Option Grammar) := do
  let (p, g) ← g.peek
  let content (g : Grammar) (e : List Expectation) : Grammar :=
    { g with expected := e, handles := g.handles ++ standardHandles }
  match p.token with
  | .streamEnd => return none
  | .versionDirective .. | .tagDirective .. | .documentStart =>
    let (p, g) ← g.directives (g.stream.cursor.rest.length + 2) false
    if p.token == .documentStart then return some (content g.pop [.documentContent, .documentEnd])
    else .error (.malformed .missingDocumentStart p.start none)
  | _ => return some (content g [.blockNode, .documentEnd])

end Grammar

/-- The events of a document.  `failure` is why the text is refused, if it is, and `more` tells
whether anything but signs for the end of a document follows. -/
structure Events where
  list : List Event
  failure : Option Failure
  more : Bool
deriving Repr

namespace Events

/-- Whether anything but signs for the end of a document follows. -/
def hasMore : Nat → Grammar → Bool
  | 0, _ => false
  | n + 1, g =>
    match g.peek with
    | .error _ => true
    | .ok (p, g) =>
      if p.token == .documentEnd then hasMore n g.pop else p.token != .streamEnd

/-- Collects the events up to the end of the document or to a failure. -/
def collect : Nat → Grammar → List Event → Events
  | 0, _, out => ⟨out.reverse, none, false⟩
  | n + 1, g, out =>
    match g.next with
    | .error failure => ⟨out.reverse, some failure, false⟩
    | .ok (some e, g) => collect n g (e :: out)
    | .ok (none, g) => ⟨out.reverse, none, hasMore (n + 1) g⟩

/-- The bytes in front of the first character that a text must not hold. -/
def forbiddenOffset : List Char → Nat → Option Nat
  | [], _ => none
  | c :: rest, n => if isAllowed c then forbiddenOffset rest (n + c.utf8Size) else some n

/-- The events of the first document of a text.  A byte order mark in front of the text is no part
of it.  The number of events is bounded by the number of tokens, and that by the number of
characters: each character contributes at most four tokens. -/
def ofText (text : String) : Events :=
  let all := text.toList
  let (chars, skipped) := match all with
    | '\uFEFF' :: rest => (rest, 3)
    | _ => (all, 0)
  match forbiddenOffset chars skipped with
  | some offset => ⟨[], some (.forbiddenCharacter offset), false⟩
  | none =>
    match Grammar.start? ⟨Stream.ofText chars, [], []⟩ with
    | .error failure => ⟨[], some failure, false⟩
    | .ok none => ⟨[], none, false⟩
    | .ok (some g) => collect (16 * chars.length + 16) g []

end Events

end CommandMenu.Yaml
