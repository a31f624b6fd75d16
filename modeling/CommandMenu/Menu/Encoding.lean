import CommandMenu.Json.Record
import CommandMenu.Menu.Document
import CommandMenu.Time.Reader

/-! # The JSON form of menus and reports

Menus, configurations and reports are written as JSON with their fields in order; a field that is
not set is left out.  Reading is more generous than writing: see `Json.Tree.fields?`.

* `Group.json`, `Configuration.json`, `Fault.Report.json` and the like write.
* `Group.ofJson?` and the like read a tree, `Json.decode?` reads a text.
* An item that can be read as an action is one, also where it could be read as a group.
-/

namespace CommandMenu

open Json (Tree)

/-! ### Writing -/

/-- A text that may be unset. -/
def Json.textMember (name : String) (s : Option String) : String × Option Json.Value :=
  (name, s.map .string)

/-- The JSON form of an action. -/
def Action.json (a : Action) : Json.Value :=
  .ofMembers
    [("id", some (.string a.id)), Json.textMember "name" a.name, Json.textMember "color" a.color,
      Json.textMember "icon" a.icon, Json.textMember "keycode" a.keycode]

mutual

/-- The JSON form of an item. -/
def Item.json : Item → Json.Value
  | .action a => a.json
  | .group g => Group.json g

/-- The JSON form of a group. -/
def Group.json : Group → Json.Value
  | ⟨name, items, keycode, icon, color⟩ =>
    .ofMembers
      [("name", some (.string name)), ("items", some (.array (Item.listJson items))),
        Json.textMember "keycode" keycode, Json.textMember "icon" icon,
        Json.textMember "color" color]

/-- The JSON forms of some items. -/
def Item.listJson : List Item → List Json.Value
  | [] => []
  | item :: rest => item.json :: Item.listJson rest

end

/-- The JSON form of a format. -/
def Format.json (f : Format) : Json.Value := .string f.name

/-- The JSON form of a configuration. -/
def Configuration.json (c : Configuration) : Json.Value :=
  .object [("actions", Group.json c.actions), ("format", c.format.json),
    ("updated_at", .string c.updatedAt.render)]

/-- The JSON form of a code. -/
def Code.json (c : Code) : Json.Value := .string c.name

/-- A natural number. -/
def Json.count (n : Nat) : Json.Value := .number (.integer n)

/-- The JSON form of a report. -/
def Fault.Report.json (r : Fault.Report) : Json.Value :=
  .ofMembers
    [("code", some r.code.json), ("numeric_code", some (Json.count r.number)),
      ("message", some (.string r.message)), ("suggestion", some (.string r.suggestion)),
      ("context", r.context), ("recoverable", some (.bool r.recoverable)),
      ("category", some (.string r.category))]

/-- The JSON form of a warning. -/
def Warning.json (w : Warning) : Json.Value :=
  .object [("path", .string w.path), ("message", .string w.message)]

/-! ### Reading -/

/-- The action of a tree. -/
def Action.ofJson? (t : Tree) : Option Action := do
  match ← t.fields? ["id", "name", "color", "icon", "keycode"] 1 with
  | [id, name, color, icon, keycode] =>
    return { id := ← Tree.needed Tree.text? id, name := ← Tree.optional Tree.text? name,
             color := ← Tree.optional Tree.text? color, icon := ← Tree.optional Tree.text? icon,
             keycode := ← Tree.optional Tree.text? keycode }
  | _ => none

mutual

/-- The item of a tree. -/
def Item.ofJson? (t : Tree) : Option Item :=
  match Action.ofJson? t with
  | some a => some (.action a)
  | none => (Group.ofJson? t).map .group
termination_by (sizeOf t, 1)

/-- The group of a tree all of whose parts have a value. -/
def Group.ofJson? (t : Tree) : Option Group :=
  match _h : t.fields? ["name", "items", "keycode", "icon", "color"] 2 with
  | some [name, some (.array items), keycode, icon, color] => do
    let name ← Tree.needed Tree.text? name
    let items ← Item.listOfJson? items
    let keycode ← Tree.optional Tree.text? keycode
    let icon ← Tree.optional Tree.text? icon
    let color ← Tree.optional Tree.text? color
    return { name, items, keycode, icon, color }
  | _ => none
termination_by (sizeOf t, 0)
decreasing_by
  have := Tree.sizeOf_lt_of_mem_fields? (u := .array items) _h (by simp)
  apply Prod.Lex.left
  simp only [Tree.array.sizeOf_spec] at this
  omega

/-- The items of some trees. -/
def Item.listOfJson? (ts : List Tree) : Option (List Item) :=
  match ts with
  | [] => some []
  | t :: rest => do
    let item ← Item.ofJson? t
    let items ← Item.listOfJson? rest
    return item :: items
termination_by (sizeOf ts, 0)

end

/-- The group of a tree of which only the items need have values throughout.  `levels` is how deep
lists and objects may nest in it. -/
def Group.ofOpenJson? (levels : Nat) (t : Tree) : Option Group := do
  let fields ← t.fields? ["name", "items", "keycode", "icon", "color"] 2
  match fields with
  | [_, some items, _, _, _] =>
    let _ ← items.value? (levels - 1)
    Group.ofJson? t
  | _ => none

/-- The format of a tree. -/
def Format.ofJson? (t : Tree) : Option Format := t.choice?.bind Format.ofName?

/-- The code of a tree. -/
def Code.ofJson? (t : Tree) : Option Code := t.choice?.bind Code.ofName?

/-- The point of time of a tree. -/
def Instant.ofJson? (t : Tree) : Option Instant := t.text?.bind Instant.read?

/-- How deep lists and objects may nest in the tree of a text. -/
def Json.maxLevels : Nat := Json.maxDepth - 1

/-- The configuration of a tree. -/
def Configuration.ofJson? (t : Tree) : Option Configuration := do
  match ← t.fields? ["actions", "format", "updated_at"] 3 with
  | [actions, format, updatedAt] =>
    return { actions := ← Tree.needed (Group.ofOpenJson? (Json.maxLevels - 1)) actions,
             format := ← Tree.needed Format.ofJson? format,
             updatedAt := ← Tree.needed Instant.ofJson? updatedAt }
  | _ => none

/-- The report of a tree. -/
def Fault.Report.ofJson? (t : Tree) : Option Fault.Report := do
  match ← t.fields?
      ["code", "numeric_code", "message", "suggestion", "context", "recoverable", "category"]
      7 with
  | [code, number, message, suggestion, context, recoverable, category] =>
    return { code := ← Tree.needed Code.ofJson? code, number := ← Tree.needed Tree.word? number,
             message := ← Tree.needed Tree.text? message,
             suggestion := ← Tree.needed Tree.text? suggestion,
             context := (← Tree.optional (Tree.value? (Json.maxLevels - 1)) context).map
               Json.Value.sortKeys,
             recoverable := ← Tree.needed Tree.flag? recoverable,
             category := ← Tree.needed Tree.text? category }
  | _ => none

/-- Reads a text by a reading of its tree. -/
def Json.decode? {α : Type} (read : Tree → Option α) (text : String) : Option α :=
  match Tree.read false text with
  | .ok t => read t
  | .error _ => none

/-- Reads the text of an item, all of whose parts must have a value. -/
def Item.decode? (text : String) : Option Item :=
  Json.decode? (fun t => (t.value? Json.maxLevels).bind fun _ => Item.ofJson? t) text

/-- Reads the text of a group. -/
def Group.decode? (text : String) : Option Group :=
  Json.decode? (Group.ofOpenJson? Json.maxLevels) text

end CommandMenu
