/-! # Menus

A menu is a tree: an item is an action or a group of items.

* `Action`, `Group` and `Item` are the tree; `Item.label` is what a reader sees of an item.
* `Group.actions` lists all actions depth first, `Group.depth` counts the levels of groups.
* `Group.find?` is the item that a key selects among the direct items.
-/

namespace CommandMenu

/-- An entry that runs a command.  Without a name it shows its id. -/
structure Action where
  id : String
  name : Option String := none
  color : Option String := none
  icon : Option String := none
  keycode : Option String := none
deriving DecidableEq, Repr, Inhabited

/-- A named list of items with the attributes of a group. -/
structure GroupOf (ι : Type) where
  name : String
  items : List ι := []
  keycode : Option String := none
  icon : Option String := none
  color : Option String := none
deriving Repr, BEq

/-- An entry of a menu. -/
inductive Item where
  | action (action : Action)
  | group (group : GroupOf Item)
deriving Repr, BEq, Inhabited

/-- A group of menu items. -/
abbrev Group := GroupOf Item

/-- What a reader sees of an action. -/
def Action.label (a : Action) : String := a.name.getD a.id

namespace Item

/-- The key that selects the item in its group. -/
def keycode : Item → Option String
  | .action a => a.keycode
  | .group g => g.keycode

/-- What a reader sees of an item. -/
def label : Item → String
  | .action a => a.label
  | .group g => g.name

/-- The action, if the item is one. -/
def action? : Item → Option Action
  | .action a => some a
  | .group _ => none

/-- The group, if the item is one. -/
def group? : Item → Option Group
  | .group g => some g
  | .action _ => none

end Item

namespace Group

/-- The name of the outermost group of a document that gives none. -/
def rootName : String := "Radial Menu"

/-- The outermost group with the given items. -/
def root (items : List Item) : Group := { name := rootName, items := items }

instance : Inhabited Group := ⟨root []⟩

/-- The first direct item with this key. -/
def find? (g : Group) (key : String) : Option Item :=
  g.items.find? fun item => item.keycode == some key

/-- Follows keys from group to group.  Each key yields the item it selects; behind a key that
selects nothing, or selects an action, no key selects anything. -/
def trail (g : Group) : List String → List (Option Item)
  | [] => []
  | key :: rest =>
    let found := g.find? key
    found :: match found with
      | some (.group inner) => trail inner rest
      | _ => rest.map fun _ => none

end Group

/-! ### All actions, and the depth -/

mutual

/-- The actions of an item, depth first. -/
def Item.actions : Item → List Action
  | .action a => [a]
  | .group g => Group.actions g

/-- The actions of a group and of the groups in it, depth first in order. -/
def Group.actions : Group → List Action
  | ⟨_, items, _, _, _⟩ => Item.listActions items

/-- The actions of a list of items, in order. -/
def Item.listActions : List Item → List Action
  | [] => []
  | item :: rest => item.actions ++ Item.listActions rest

end

mutual

/-- The levels of groups that an item adds: none for an action. -/
def Item.depth : Item → Nat
  | .action _ => 0
  | .group g => Group.depth g + 1

/-- The levels of groups below a group; none if all its items are actions. -/
def Group.depth : Group → Nat
  | ⟨_, items, _, _, _⟩ => Item.listDepth items

/-- The most levels that one of the items adds. -/
def Item.listDepth : List Item → Nat
  | [] => 0
  | item :: rest => max item.depth (Item.listDepth rest)

end

end CommandMenu
