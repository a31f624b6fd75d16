import CommandMenu.Yaml.Event

/-! # The tree of a YAML document

A document as it is written: scalars with their style and tag, collections, and aliases that refer
to anchored nodes.

* `Node` is the type; `missing` stands where the text was refused before the node was complete.
* `Document` is a tree with its anchored nodes and the failure that cut it short.
* `Document.ofEvents` builds it.

An alias refers to its node by a number.  The number of an anchor is the count of different anchor
names in front of it, so that an anchor behind a repeated name shares the number of the repetition,
and the later of the two is what both names then refer to.
-/

namespace CommandMenu.Yaml

/-- A node of a document. -/
inductive Node where
  | missing
  | alias (number : Nat)
  | scalar (tag : Option Tag) (mark : Mark) (text : String) (plain : Bool)
  | sequence (tag : Option Tag) (mark : Mark) (items : List Node)
  | mapping (tag : Option Tag) (mark : Mark) (entries : List (Node × Node))
deriving Repr, Inhabited

/-- A document: its root, the anchored nodes by the place of their event, the place that each alias
number refers to, the number of events, and why the text is refused behind the last event. -/
structure Document where
  root : Node
  anchored : List (Nat × Node)
  targets : List (Nat × Nat)
  size : Nat
  failure : Option Failure

/-- The node that an alias number refers to. -/
def Document.target? (d : Document) (number : Nat) : Option Node :=
  (d.targets.lookup number).bind fun place => d.anchored.lookup place

/-- A collection that is not complete.  Its nodes are in reverse order, and in a mapping keys and
values alternate. -/
structure OpenNode where
  isMapping : Bool
  place : Option Nat
  tag : Option Tag
  mark : Mark
  nodes : List Node

/-- Pairs up keys and values. -/
def pairUp : List Node → List (Node × Node)
  | key :: value :: rest => (key, value) :: pairUp rest
  | [key] => [(key, .missing)]
  | [] => []

/-- The node of a collection. -/
def OpenNode.close (o : OpenNode) : Node :=
  if o.isMapping then .mapping o.tag o.mark (pairUp o.nodes.reverse)
  else .sequence o.tag o.mark o.nodes.reverse

/-- The node of a collection that breaks off. -/
def OpenNode.cut (o : OpenNode) : Node := { o with nodes := .missing :: o.nodes }.close

/-- The state of building a document: the open collections with the innermost first, the root once
it is complete, the number of each anchor name, and what `Document` holds. -/
structure Assembly where
  opened : List OpenNode := []
  root : Option Node := none
  names : List (String × Nat) := []
  anchored : List (Nat × Node) := []
  targets : List (Nat × Nat) := []
  size : Nat := 0

namespace Assembly

/-- Adds a complete node to the innermost collection. -/
def add (a : Assembly) (place : Option Nat) (node : Node) : Assembly :=
  let a := match place with
    | some i => { a with anchored := (i, node) :: a.anchored }
    | none => a
  match a.opened with
  | [] => { a with root := some node }
  | o :: rest => { a with opened := { o with nodes := node :: o.nodes } :: rest }

/-- Gives an anchor its number, which refers to the current event. -/
def name (a : Assembly) : Option String → Option Nat × Assembly
  | none => (none, a)
  | some anchor =>
    let number := a.names.length
    let names := (anchor, number) :: a.names.filter fun e => e.1 != anchor
    (some a.size, { a with names := names, targets := (number, a.size) :: a.targets })

/-- Counts an event. -/
def count (a : Assembly) : Assembly := { a with size := a.size + 1 }

/-- Starts a collection. -/
def openNode (a : Assembly) (isMapping : Bool) (anchor : Option String) (tag : Option Tag)
    (mark : Mark) : Assembly :=
  let (place, a) := a.name anchor
  { a.count with opened := ⟨isMapping, place, tag, mark, []⟩ :: a.opened }

/-- Ends the innermost collection. -/
def closeNode (a : Assembly) : Assembly :=
  match a.opened with
  | [] => a
  | o :: rest => { a.count with opened := rest }.add o.place o.close

/-- Ends all collections where the text breaks off. -/
def cut (a : Assembly) : List OpenNode → Assembly
  | [] => a
  | o :: rest =>
    let node := match a.root with
      | some inner => { o with nodes := inner :: o.nodes }.close
      | none => o.cut
    let anchored := match o.place with
      | some i => (i, node) :: a.anchored
      | none => a.anchored
    cut { a with root := some node, anchored := anchored } rest

/-- The document, given why the text is refused behind the last event. -/
def finish (a : Assembly) (failure : Option Failure) : Document :=
  let a := a.cut a.opened
  ⟨a.root.getD .missing, a.anchored, a.targets, a.size, failure⟩

/-- Builds the document from events. -/
def run (a : Assembly) (failure : Option Failure) : List Event → Document
  | [] => a.finish failure
  | e :: rest =>
    match e with
    | .alias name mark =>
      match a.names.lookup name with
      | some number => run (a.count.add none (.alias number)) failure rest
      | none => a.finish (some (.unknownAnchor mark))
    | .scalar anchor tag text plain mark =>
      let (place, a) := a.name anchor
      run (a.count.add place (.scalar tag mark text plain)) failure rest
    | .sequenceStart anchor tag mark => run (a.openNode false anchor tag mark) failure rest
    | .mappingStart anchor tag mark => run (a.openNode true anchor tag mark) failure rest
    | .sequenceEnd => run a.closeNode failure rest
    | .mappingEnd => run a.closeNode failure rest

end Assembly

/-- The document of a list of events. -/
def Document.ofEvents (es : List Event) (failure : Option Failure) : Document :=
  ({} : Assembly).run failure es

end CommandMenu.Yaml
