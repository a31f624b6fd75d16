import CommandMenu.Yaml.Node
import CommandMenu.Yaml.Scalar

/-! # The value of a YAML document

A document denotes the value of its root, where every alias stands for the node it refers to.

* `Document.valueOf` computes the value of a node from those of the nodes in it, and
  `Document.expand` that of any node.  Collections nest at most `maxDepth` deep, which also bounds an
  alias inside its own node, and only so many aliases are followed as the document has events, times
  `aliasFactor`.
* `Yaml.read` is the value of a text that holds one document.
-/

namespace CommandMenu.Yaml

/-- How deep collections may nest. -/
def maxDepth : Nat := 128

/-- How many aliases may be followed for each event of a document. -/
def aliasFactor : Nat := 100

/-- How a repeated key is named. -/
def KeyName.ofValue : Value → KeyName
  | .null => .null
  | .bool b => .bool b
  | .number n => .number n
  | .string s => .string s
  | .sequence _ | .mapping _ | .tagged _ _ => .other

/-- The value of a scalar below a tag of the user's own. -/
def scalarValue (tag : Option Tag) (text : String) (plain : Bool) : Except Rejection Value :=
  match tag.filter fun t => t.own?.isNone with
  | none => untaggedValue text plain
  | some t => taggedValue t text plain

namespace Document

/-- The tag of a node. -/
def tagOf : Node → Option Tag
  | .scalar tag _ _ _ => tag
  | .sequence tag _ _ => tag
  | .mapping tag _ _ => tag
  | .missing | .alias _ => none

/-- Why the text is refused where a node is missing. -/
def missingFailure (d : Document) : Failure := d.failure.getD .noDocument

/-- Follows an alias.  An alias never refers to an alias.  `used` counts the aliases followed so
far. -/
def resolve (d : Document) (node : Node) (used : Nat) : Except Failure (Node × Nat) :=
  match node with
  | .alias number =>
    if used + 1 > d.size * aliasFactor then .error .tooManyRepetitions
    else match d.target? number with
      | some target => .ok (target, used + 1)
      | none => .error d.missingFailure
  | node => .ok (node, used)

/-- How a value is reached under a key. -/
def routeOf (route : Route) : Node → Route
  | .scalar _ _ text _ => .key route text
  | _ => .unnamed route

/-- A tag of the user's own stays around the value of its node. -/
def wrap (node : Node) (v : Value) : Value :=
  match (tagOf node).bind Tag.own? with
  | some tag => .tagged tag v
  | none => v

/-- What finds the value of a node.  The number of aliases followed so far goes in and comes out. -/
abbrev Expander := Route → Node → Nat → Except Failure (Value × Nat)

/-- Puts the value of the next item in front of those of the items before it. -/
def pushItem (below : Expander) (route : Route) (state : List Value × Nat) (item : Node) :
    Except Failure (List Value × Nat) := do
  let (v, used) ← below (.index route state.1.length) item state.2
  return (v :: state.1, used)

/-- Puts the next entry in front of the entries before it, unless one of them has the same key. -/
def pushEntry (below : Expander) (route : Route) (mark : Mark) (state : List (Value × Value) × Nat)
    (e : Node × Node) : Except Failure (List (Value × Value) × Nat) := do
  let (key, used) ← below route e.1 state.2
  match state.1.find? fun p => p.1.same key with
  | some (first, _) => .error (.rejected (.duplicateKey (KeyName.ofValue first)) route mark)
  | none =>
    let (value, used) ← below (routeOf route e.1) e.2 used
    return ((key, value) :: state.1, used)

/-- The value of a node that is no alias.  `below?` finds the values of the nodes in it, if there may
be another level of collections. -/
def valueOf (d : Document) (below? : Option Expander) (route : Route) (node : Node) (used : Nat) :
    Except Failure (Value × Nat) :=
  match node, below? with
  | .missing, _ => .error d.missingFailure
  | .alias _, _ => .error d.missingFailure
  | .scalar tag mark text plain, _ =>
    match scalarValue tag text plain with
    | .ok v => .ok (wrap node v, used)
    | .error cause => .error (.rejected cause route mark)
  | .sequence _ mark _, none => .error (.tooDeep mark)
  | .mapping _ mark _, none => .error (.tooDeep mark)
  | .sequence _ _ items, some below => do
    let (values, used) ← items.foldlM (pushItem below route) ([], used)
    return (wrap node (.sequence values.reverse), used)
  | .mapping _ mark entries, some below => do
    let (pairs, used) ← entries.foldlM (pushEntry below route mark) ([], used)
    return (wrap node (.mapping pairs.reverse), used)

/-- The value of a node, of which so many levels of collections may be opened. -/
def expand (d : Document) : (depth : Nat) → Expander
  | 0, route, node, used => do
    let (node, used) ← d.resolve node used
    d.valueOf none route node used
  | depth + 1, route, node, used => do
    let (node, used) ← d.resolve node used
    d.valueOf (some (d.expand depth)) route node used

/-- The value of the document; a text without any document is null. -/
def value (d : Document) : Except Failure Value :=
  if d.size = 0 && d.failure.isNone then .ok .null
  else do
    let (v, _) ← d.expand maxDepth .root d.root 0
    match d.failure with
    | some failure => .error failure
    | none => return v

end Document

/-- The value of a text that holds at most one document. -/
def read (text : String) : Except Failure Value := do
  let events := Events.ofText text
  let v ← (Document.ofEvents events.list events.failure).value
  if events.more then .error .severalDocuments else return v

end CommandMenu.Yaml
