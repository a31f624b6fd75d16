import CommandMenu.Display.Style
import CommandMenu.Menu.Tree

/-! # Layout for readers

What is shown to a reader is a sequence of blocks, each of which is laid out in lines.

* `Item.lines` are the lines of an item and the items in it, two blanks deeper for each level.
* `Layout.Block.lines` are the lines of a block; `Layout.render` joins the lines of several blocks.
* `Group.text` is a menu as plain lines.
-/

namespace CommandMenu

/-- A number of items in words. -/
def Layout.countText (n : Nat) : String := if n = 1 then "1 item" else toString n ++ " items"

/-! ### Menus -/

/-- The blanks in front of an item at a level. -/
def Layout.indent (level : Nat) : String := String.ofList (List.replicate (2 * level) ' ')

/-- The key in front of an item. -/
def Layout.keyText (colours : Bool) (keycode : Option String) : String :=
  match keycode with
  | none => ""
  | some key => Style.cyan.apply colours ("[" ++ key ++ "]") ++ " "

/-- The line of an action.  The id of an action with a name stands behind the name. -/
def Action.line (colours : Bool) (level : Nat) (a : Action) : String :=
  Layout.indent level ++ Layout.keyText colours a.keycode ++
    match a.name with
    | some name => name ++ " " ++ Style.dim.apply colours ("(" ++ a.id ++ ")")
    | none => a.id

mutual

/-- The lines of an item at a level. -/
def Item.lines (colours : Bool) (level : Nat) : Item → List String
  | .action a => [a.line colours level]
  | .group g => Group.linesBelow colours level g

/-- The lines of a group inside another one. -/
def Group.linesBelow (colours : Bool) (level : Nat) : Group → List String
  | ⟨name, items, keycode, _, _⟩ =>
    (Layout.indent level ++ Layout.keyText colours keycode ++
      Style.bold.apply colours (name ++ "/")) ::
      Item.listLines colours (level + 1) items

/-- The lines of some items at a level. -/
def Item.listLines (colours : Bool) (level : Nat) : List Item → List String
  | [] => []
  | item :: rest => item.lines colours level ++ Item.listLines colours level rest

end

/-- The lines of the outermost group. -/
def Group.lines (colours : Bool) (g : Group) : List String :=
  (Style.bold.apply colours g.name ++ " (" ++ Layout.countText g.items.length ++ ")") ::
    Item.listLines colours 1 g.items

/-! ### Blocks -/

/-- A part of what is shown. -/
inductive Layout.Block where
  | title (text : String)
  | pair (key value : String)
  | blank
  | line (text : String)
  | menu (group : Group)

/-- The width of the keys of pairs. -/
def Layout.keyWidth : Nat := 12

/-- A text filled up with blanks behind it. -/
def Layout.padded (width : Nat) (s : String) : String :=
  s ++ String.ofList (List.replicate (width - s.length) ' ')

/-- The lines of a block. -/
def Layout.Block.lines (colours : Bool) : Layout.Block → List String
  | .title text => [Style.bold.apply colours text, ""]
  | .pair key value => [Style.dim.apply colours (Layout.padded Layout.keyWidth key) ++ " " ++ value]
  | .blank => [""]
  | .line text => [text]
  | .menu g => Group.lines colours g

/-- The blocks of something shown to a reader. -/
abbrev Layout := List Layout.Block

/-- The lines of a layout. -/
def Layout.lines (colours : Bool) (l : Layout) : List String :=
  l.flatMap (Layout.Block.lines colours)

/-- The text of a layout; its lines are set apart by line feeds. -/
def Layout.render (colours : Bool) (l : Layout) : String :=
  String.intercalate "\n" (l.lines colours)

/-- The text of a menu without styles. -/
def Group.text (g : Group) : String := Layout.render false [.menu g]

end CommandMenu
