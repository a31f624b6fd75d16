import CommandMenu.Menu.CommandText
import CommandMenu.Menu.Tree
import CommandMenu.Fault.Basic
import CommandMenu.Value.Aliases
import CommandMenu.Value.Basic
import CommandMenu.Value.Position

/-! # What a value stands for

A value of a menu document stands for an action or for a group.  There are many ways to write one;
`Shape.ofValue` tells them apart without looking into the items of a group.

* a text, or `key: text`, or `text:` is a command text;
* `Name: [...]` is a group of these items;
* `key: {...}` is a group or an action that takes the key as its name or its keycode, and
  `ns:command: {...}` is an action that takes it as its id;
* any other map is a group if it has `items`, and an action if it has `id`.

All maps are looked at under their canonical field names.  `Shape.sizeOf_items_lt` says that the
items of a group are smaller than the value it was read from.
-/

namespace CommandMenu

/-- What a value stands for.  The items of a group are not looked at yet; they are found at
`place`. -/
inductive Shape where
  | action (action : Action)
  | group (head : GroupOf Value) (items : Option Value) (place : Position)

/-- Gives a map the key it is found under.  A map that names itself, but has no keycode, takes the
key as its keycode; every other map takes it as its name. -/
def Fields.under (body : Fields Value) (key : String) : Fields Value :=
  body.insert (if body.has "name" && !body.has "keycode" then "keycode" else "name") (.string key)

theorem Fields.get?_under_items (body : Fields Value) (key : String) :
    (body.under key).get? "items" = body.get? "items" := by
  unfold Fields.under
  rw [Fields.get?_insert, if_neg]
  split <;> decide

namespace Shape

/-! ### Actions -/

/-- The action of a command text. -/
def ofText (p : Position) (text : String) (keycode : Option String) : Except Fault Shape :=
  match CommandText.ofText? text with
  | some c => .ok (.action { id := c.id, name := c.name, keycode := keycode })
  | none => .error (.unknownText p.display text)

/-- The action that the fields of a map describe. -/
def actionOfFields (p : Position) (m : Fields Value) : Except Fault Shape :=
  match m.text? "id" with
  | some id => .ok (.action
      { id := id, name := m.text? "name", color := m.text? "color", icon := m.text? "icon",
        keycode := m.text? "keycode" })
  | none => .error (.missingId p.display)

/-- The action of a key that is a command text.  The key gives the id, and the name unless the body
has one. -/
def actionOfKey (p : Position) (key : String) (body : Fields Value) : Except Fault Shape :=
  match CommandText.ofText? key with
  | some c => .ok (.action
      { id := c.id, name := (body.text? "name").or c.name, color := body.text? "color",
        icon := body.text? "icon", keycode := body.text? "keycode" })
  | none => .error (.missingId p.display)

/-! ### Groups -/

/-- The group that the fields of a map describe. -/
def groupOfFields (p : Position) (m : Fields Value) : Except Fault Shape :=
  match m.text? "name" with
  | some name => .ok (.group
      { name := name, keycode := m.text? "keycode", icon := m.text? "icon",
        color := m.text? "color" }
      (m.get? "items") (p.key "items"))
  | none => .error (.unnamedGroup p.display)

/-- The group that is named by the key of a list. -/
def groupOfKey (p : Position) (key : String) (items : List Value) : Except Fault Shape :=
  if Text.hasText key then .ok (.group { name := key } (some (.list items)) p)
  else .error (.unnamedGroup p.display)

/-! ### All values -/

/-- What a map under its only key stands for. -/
def ofBody (p : Position) (key : String) (body : Fields Value) : Except Fault Shape :=
  if body.has "items" then groupOfFields (p.key key) (body.under key)
  else if CommandText.isQualified key then actionOfKey (p.key key) key body
  else if body.has "id" then actionOfFields (p.key key) (body.under key)
  else .error (.ambiguousEntry p.display key)

/-- What a map with one entry stands for. -/
def ofEntry (p : Position) (key : String) : Value → Except Fault Shape
  | .list items => groupOfKey (p.key key) key items
  | .string text => ofText p text (Text.nonBlank key)
  | .null => ofText p key none
  | .map body => ofBody p key body.canonical
  | .bool _ | .number _ => .error (.ambiguousEntry p.display key)

/-- What a map with no entry or several ones stands for. -/
def ofRecord (p : Position) (m : Fields Value) : Except Fault Shape :=
  if m.has "items" then groupOfFields p m
  else if m.has "id" then actionOfFields p m
  else .error (.missingId p.display)

/-- What a map with canonical field names stands for. -/
def ofFields (p : Position) (m : Fields Value) : Except Fault Shape :=
  match m.single? with
  | some (key, v) => ofEntry p key v
  | none => ofRecord p m

/-- What the value at a position stands for. -/
def ofValue (p : Position) : Value → Except Fault Shape
  | .string text => ofText p text none
  | .list _ => .error (.unnamedGroup p.display)
  | .map m => ofFields p m.canonical
  | .null => .error (.unknownText p.display "null")
  | .bool b => .error (.unknownText p.display (if b then "true" else "false"))
  | .number n => .error (.unknownText p.display n.render)

/-! ### The items of a group are smaller -/

theorem sizeOf_lt_of_mem_canonical {m : Fields Value} {k : String} {v : Value}
    (h : (k, v) ∈ m.canonical.entries) : sizeOf v + 1 < sizeOf (Value.map m) := by
  obtain ⟨k', hk⟩ := Fields.mem_of_mem_canonical h
  have h1 := List.sizeOf_lt_of_mem hk
  cases m
  simp only [Value.map.sizeOf_spec, Fields.mk.sizeOf_spec, Prod.mk.sizeOf_spec] at *
  omega

theorem sizeOf_get?_canonical_lt (m : Fields Value) (k : String) :
    sizeOf (m.canonical.get? k) < sizeOf (Value.map m) := by
  cases h : m.canonical.get? k with
  | none =>
      cases m
      simp only [Option.none.sizeOf_spec, Value.map.sizeOf_spec, Fields.mk.sizeOf_spec]
      omega
  | some v =>
      have := sizeOf_lt_of_mem_canonical (Fields.mem_of_lookup h)
      simp only [Option.some.sizeOf_spec]
      omega

theorem items_of_groupOfFields {p q : Position} {m : Fields Value} {items : Option Value}
    {head : GroupOf Value} (h : groupOfFields p m = .ok (.group head items q)) :
    items = m.get? "items" := by
  unfold groupOfFields at h
  split at h <;> simp_all

theorem ofText_ne_group {p q : Position} {text : String} {keycode : Option String}
    {items : Option Value} {head : GroupOf Value} :
    ofText p text keycode ≠ .ok (.group head items q) := by
  unfold ofText
  split <;> simp

theorem actionOfFields_ne_group {p q : Position} {m : Fields Value} {items : Option Value}
    {head : GroupOf Value} : actionOfFields p m ≠ .ok (.group head items q) := by
  unfold actionOfFields
  split <;> simp

theorem actionOfKey_ne_group {p q : Position} {key : String} {m : Fields Value}
    {items : Option Value} {head : GroupOf Value} :
    actionOfKey p key m ≠ .ok (.group head items q) := by
  unfold actionOfKey
  split <;> simp

theorem sizeOf_items_ofBody {p q : Position} {key : String} {body : Fields Value}
    {items : Option Value} {head : GroupOf Value}
    (h : ofBody p key body.canonical = .ok (.group head items q)) :
    sizeOf items < sizeOf (Value.map body) := by
  unfold ofBody at h
  split at h
  · rw [items_of_groupOfFields h, Fields.get?_under_items]
    exact sizeOf_get?_canonical_lt body "items"
  · split at h
    · exact absurd h actionOfKey_ne_group
    · split at h
      · exact absurd h actionOfFields_ne_group
      · cases h

theorem sizeOf_items_ofEntry {p q : Position} {key : String} {v : Value} {items : Option Value}
    {head : GroupOf Value} (h : ofEntry p key v = .ok (.group head items q)) :
    sizeOf items ≤ sizeOf v + 1 := by
  cases v with
  | list vs =>
      simp only [ofEntry, groupOfKey] at h
      split at h
      · cases h
        simp only [Option.some.sizeOf_spec]
        omega
      · cases h
  | string s =>
      rw [ofEntry] at h
      exact absurd h ofText_ne_group
  | null =>
      rw [ofEntry] at h
      exact absurd h ofText_ne_group
  | bool b => cases h
  | number n => cases h
  | map body => exact Nat.le_succ_of_le (Nat.le_of_lt (sizeOf_items_ofBody h))

theorem sizeOf_items_lt {p q : Position} {v : Value} {items : Option Value} {head : GroupOf Value}
    (h : ofValue p v = .ok (.group head items q)) : sizeOf items < sizeOf v := by
  cases v with
  | string s =>
      rw [ofValue] at h
      exact absurd h ofText_ne_group
  | list vs => cases h
  | null => cases h
  | bool b => cases h
  | number n => cases h
  | map m =>
      simp only [ofValue, ofFields] at h
      split at h
      · next key w hs =>
          have hm := sizeOf_lt_of_mem_canonical (Fields.mem_of_single? hs)
          have hi := sizeOf_items_ofEntry h
          omega
      · unfold ofRecord at h
        split at h
        · rw [items_of_groupOfFields h]
          exact sizeOf_get?_canonical_lt m "items"
        · split at h
          · exact absurd h actionOfFields_ne_group
          · cases h

end Shape
end CommandMenu
