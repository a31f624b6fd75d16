import CommandMenu.Menu.Shape
import CommandMenu.Menu.Warning
import CommandMenu.Value.OfYaml

/-! # Building a menu

A document is built into a menu item by item.  The first fault ends the build; a group without
items is only warned about.

* `Item.build` builds one item, `Item.buildList` the items of a list.
* `Group.build` builds a document: a list of items, or a map with `items`.
* `Builder` runs several builds and collects their warnings.
-/

namespace CommandMenu

/-! ### Items -/

mutual

/-- Builds the item at a position. -/
def Item.build (p : Position) (v : Value) : Outcome Item :=
  match _h : Shape.ofValue p v with
  | .error f => .refuse f
  | .ok (.action a) => .ok (.action a)
  | .ok (.group head items place) => do
    let built ← Item.buildItems place items
    return .group { head with items := built }
termination_by (sizeOf v, 0)
decreasing_by
  exact Prod.Lex.left _ _ (Shape.sizeOf_items_lt _h)

/-- Builds the items of a group.  What is missing or not a list counts as an empty one. -/
def Item.buildItems (place : Position) (items : Option Value) : Outcome (List Item) :=
  match items with
  | some (.list []) => do
    Outcome.warn ⟨place, .noItems⟩
    return []
  | some (.list (first :: rest)) => Item.buildList place 0 (first :: rest)
  | some other => do
    Outcome.warn ⟨place, .notAList other.kind⟩
    return []
  | none => do
    Outcome.warn ⟨place, .missing⟩
    return []
termination_by (sizeOf items, 0)
decreasing_by
  apply Prod.Lex.left
  simp only [Option.some.sizeOf_spec, Value.list.sizeOf_spec]
  omega

/-- Builds the elements of a list from a number on. -/
def Item.buildList (place : Position) (number : Nat) (vs : List Value) : Outcome (List Item) :=
  match vs with
  | [] => .ok []
  | v :: rest => do
    let item ← Item.build (place.index number) v
    let items ← Item.buildList place (number + 1) rest
    return item :: items
termination_by (sizeOf vs, 0)
decreasing_by
  · apply Prod.Lex.left
    simp only [List.cons.sizeOf_spec]
    omega
  · apply Prod.Lex.left
    simp only [List.cons.sizeOf_spec]
    omega

end

/-! ### Documents -/

/-- Builds the outermost group of a document. -/
def Group.build : Value → Outcome Group
  | .list items => do return Group.root (← Item.buildItems Position.root (some (.list items)))
  | .map fields =>
    let m := fields.canonical
    if m.has "items" then do
      let built ← Item.buildItems (Position.root.key "items") (m.get? "items")
      return { name := (m.text? "name").getD Group.rootName, items := built,
               keycode := m.text? "keycode", icon := m.text? "icon", color := m.text? "color" }
    else .refuse (.malformedDocument "a map without `items`")
  | other => .refuse (.malformedDocument other.kind)

/-- Builds the menu of a YAML text. -/
def Group.ofYamlText (text : String) : Outcome Group := do
  let v ← Outcome.ofExcept (Value.read text)
  Group.build v

/-! ### Several builds -/

/-- The warnings of all builds so far. -/
structure Builder where
  warnings : List Warning := []

namespace Builder

/-- The builder behind one more build, with the outcome of that build. -/
def after {α : Type} (b : Builder) (x : Outcome α) : Except Fault α × Builder :=
  (x.result, ⟨b.warnings ++ x.warnings⟩)

/-- Builds a single item that is not in any group. -/
def item (b : Builder) (v : Value) : Except Fault Item × Builder :=
  b.after (Item.build Position.root v)

/-- Builds a document. -/
def document (b : Builder) (v : Value) : Except Fault Group × Builder :=
  b.after (Group.build v)

end Builder
end CommandMenu
