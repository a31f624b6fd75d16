import CommandMenu.Menu.Build

/-! # Builders at work

A builder is handed from step to step.  A step may put a warning behind those that the builder has,
and there it stays, also when the build is refused later on.

* `Builder.Work` is a step, from a builder to a result or a fault with the builder; `Work.alone` is
  what it leaves with a fresh one.
* `Builder.buildItem`, `Builder.buildItems`, `Builder.buildList` and `Builder.buildDocument` build
  with one builder in hand.
* `Builder.serve` answers a request, `Builder.serveAll` requests in a row.
-/

namespace CommandMenu
namespace Builder

/-- A step of a build.  It gets the builder, and leaves a result or a fault and the builder. -/
def Work (α : Type) := Builder → Except Fault α × Builder

namespace Work

variable {α β : Type}

/-- A result without a change. -/
def ok (a : α) : Work α := fun b => (.ok a, b)

/-- A fault without a change. -/
def refuse (f : Fault) : Work α := fun b => (.error f, b)

/-- Puts a warning behind the others. -/
def warn (w : Warning) : Work Unit := fun b => (.ok (), ⟨b.warnings ++ [w]⟩)

/-- Goes on with a result and the builder it came with.  Behind a fault nothing is done any more. -/
def andThen (x : Work α) (f : α → Work β) : Work β := fun b =>
  match x b with
  | (.error e, b) => (.error e, b)
  | (.ok a, b) => f a b

instance : Monad Work where
  pure := ok
  bind := andThen

/-- What is left with a fresh builder: a result or a fault, and the warnings. -/
def alone (x : Work α) : Except Fault α × List Warning :=
  let (result, b) := x {}
  (result, b.warnings)

end Work

/-! ### Building with a builder in hand -/

mutual

/-- Builds the item at a position. -/
def buildItem (p : Position) (v : Value) : Work Item :=
  match _h : Shape.ofValue p v with
  | .error f => .refuse f
  | .ok (.action a) => .ok (.action a)
  | .ok (.group head items place) => do
    let built ← buildItems place items
    return .group { head with items := built }
termination_by (sizeOf v, 0)
decreasing_by
  exact Prod.Lex.left _ _ (Shape.sizeOf_items_lt _h)

/-- Builds the items of a group.  What is missing or not a list is warned about. -/
def buildItems (place : Position) (items : Option Value) : Work (List Item) :=
  match items with
  | some (.list vs) => buildList place vs
  | some other => do
    Work.warn ⟨place, .notAList other.kind⟩
    return []
  | none => do
    Work.warn ⟨place, .missing⟩
    return []
termination_by (sizeOf items, 0)
decreasing_by
  apply Prod.Lex.left
  simp only [Option.some.sizeOf_spec, Value.list.sizeOf_spec]
  omega

/-- Builds a list.  An empty one is warned about. -/
def buildList (place : Position) (vs : List Value) : Work (List Item) := do
  if vs.isEmpty then Work.warn ⟨place, .noItems⟩
  buildElements place 0 vs
termination_by (sizeOf vs, 1)
decreasing_by
  exact Prod.Lex.right _ Nat.zero_lt_one

/-- Builds the elements of a list from a number on, until one of them is refused. -/
def buildElements (place : Position) (number : Nat) (vs : List Value) : Work (List Item) :=
  match vs with
  | [] => .ok []
  | v :: rest => do
    let item ← buildItem (place.index number) v
    let items ← buildElements place (number + 1) rest
    return item :: items
termination_by (sizeOf vs, 0)
decreasing_by
  · apply Prod.Lex.left
    simp only [List.cons.sizeOf_spec]
    omega
  · apply Prod.Lex.left
    simp only [List.cons.sizeOf_spec]
    omega

end

/-- Builds the outermost group of a document. -/
def buildDocument : Value → Work Group
  | .list items => do return Group.root (← buildList Position.root items)
  | .map fields =>
    let m := fields.canonical
    if m.has "items" then do
      let built ← buildItems (Position.root.key "items") (m.get? "items")
      return { name := (m.text? "name").getD Group.rootName, items := built,
               keycode := m.text? "keycode", icon := m.text? "icon", color := m.text? "color" }
    else .refuse (.malformedDocument "a map without `items`")
  | other => .refuse (.malformedDocument other.kind)

/-! ### Requests -/

/-- What can be asked of a builder. -/
inductive Request where
  | item (v : Value)
  | document (v : Value)

/-- What a builder answers. -/
inductive Reply where
  | item (result : Except Fault Item)
  | document (result : Except Fault Group)

/-- Answers a request. -/
def serve (b : Builder) : Request → Reply × Builder
  | .item v =>
    let (result, b) := buildItem Position.root v b
    (.item result, b)
  | .document v =>
    let (result, b) := buildDocument v b
    (.document result, b)

/-- Answers requests in a row. -/
def serveAll (b : Builder) : List Request → List Reply × Builder
  | [] => ([], b)
  | request :: rest =>
    let (reply, b) := b.serve request
    let (replies, b) := b.serveAll rest
    (reply :: replies, b)

end Builder
end CommandMenu
