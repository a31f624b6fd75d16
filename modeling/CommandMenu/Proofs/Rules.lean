import CommandMenu.Menu.Shape
import CommandMenu.Proofs.CommandText

/-! # The rules of a menu document

There are nine ways to write an item.  Each is a rule that says of which values it speaks and what
they stand for, without any reference to the order in which the rules are tried.

* `Rule.Gives` is the table of the rules.  A rule makes an `Outline` of a value: an action, or the
  attributes of a group with the value that its items are read from.
* `Shape.ofValue_eq_ok_iff` says that the table is what `Shape.ofValue` accepts.
* `Rule.Gives.unique` says that no two rules speak of one value. -/

namespace CommandMenu

/-! ### Fields below an outer key -/

namespace Fields

variable (m : Fields Value)

/-- The name that a map gives to its item.  Below an outer key that is not needed as a keycode, the
key is the name. -/
def nameUnder : (outer : Option String) → Option String
  | none => m.text? "name"
  | some key => if m.has "name" && !m.has "keycode" then m.text? "name" else Text.nonBlank key

/-- The keycode that a map gives to its item.  An outer key is the keycode of a map that names
itself, but has none. -/
def keycodeUnder : (outer : Option String) → Option String
  | none => m.text? "keycode"
  | some key => if m.has "name" && !m.has "keycode" then Text.nonBlank key else m.text? "keycode"

theorem text?_under_name (key : String) : (m.under key).text? "name" = m.nameUnder (some key) := by
  unfold under nameUnder
  rw [text?_insert]
  cases m.has "name" && !m.has "keycode" <;> simp [Value.text?]

theorem text?_under_keycode (key : String) :
    (m.under key).text? "keycode" = m.keycodeUnder (some key) := by
  unfold under keycodeUnder
  rw [text?_insert]
  cases m.has "name" && !m.has "keycode" <;> simp [Value.text?]

theorem text?_under_of_ne (key : String) {field : String} (hn : field ≠ "name")
    (hk : field ≠ "keycode") : (m.under key).text? field = m.text? field := by
  unfold under
  rw [text?_insert, if_neg]
  split
  · exact hk.symm
  · exact hn.symm

end Fields

/-! ### The table -/

/-- The ways to write an item. -/
inductive Rule where
  | command
  | namedList
  | keyedCommand
  | bareCommand
  | keyedGroup
  | qualifiedKey
  | keyedAction
  | group
  | action
deriving DecidableEq, Repr

/-- What a rule makes of a value: an action, or the attributes of a group with the value that its
items are read from.  The route are the keys that lead to that value. -/
inductive Outline where
  | action (action : Action)
  | group (head : GroupOf Value) (route : List String) (items : Value)

/-- **The table of the rules.**  Every map is looked at under its canonical field names. -/
inductive Rule.Gives : Rule → Value → Outline → Prop
  /-- A command text is an action. -/
  | command {s : String} {c : CommandText} (hc : CommandText.ofText? s = some c) :
      Gives .command (.string s) (.action { id := c.id, name := c.name })
  /-- A list under a key is a group with that name. -/
  | namedList {m : Fields Value} {k : String} {vs : List Value}
      (hm : m.canonical.entries = [(k, .list vs)]) (hk : Text.hasText k = true) :
      Gives .namedList (.map m) (.group { name := k } [k] (.list vs))
  /-- A command text under a key is an action with that keycode. -/
  | keyedCommand {m : Fields Value} {k s : String} {c : CommandText}
      (hm : m.canonical.entries = [(k, .string s)]) (hc : CommandText.ofText? s = some c) :
      Gives .keyedCommand (.map m)
        (.action { id := c.id, name := c.name, keycode := Text.nonBlank k })
  /-- A command text as a key without a value is an action. -/
  | bareCommand {m : Fields Value} {k : String} {c : CommandText}
      (hm : m.canonical.entries = [(k, .null)]) (hc : CommandText.ofText? k = some c) :
      Gives .bareCommand (.map m) (.action { id := c.id, name := c.name })
  /-- A map with items under a key is a group. -/
  | keyedGroup {m b : Fields Value} {k name : String} {items : Value}
      (hm : m.canonical.entries = [(k, .map b)]) (hi : b.canonical.get? "items" = some items)
      (hn : b.canonical.nameUnder (some k) = some name) :
      Gives .keyedGroup (.map m)
        (.group
          { name := name, keycode := b.canonical.keycodeUnder (some k),
            icon := b.canonical.text? "icon", color := b.canonical.text? "color" }
          [k, "items"] items)
  /-- A map without items under a command with a colon is an action with that id. -/
  | qualifiedKey {m b : Fields Value} {k : String} {c : CommandText}
      (hm : m.canonical.entries = [(k, .map b)]) (hi : b.canonical.has "items" = false)
      (hq : ':' ∈ Text.firstWord k) (hc : CommandText.ofText? k = some c) :
      Gives .qualifiedKey (.map m)
        (.action
          { id := c.id, name := (b.canonical.text? "name").or c.name,
            color := b.canonical.text? "color", icon := b.canonical.text? "icon",
            keycode := b.canonical.text? "keycode" })
  /-- A map with an id under any other key is an action. -/
  | keyedAction {m b : Fields Value} {k id : String}
      (hm : m.canonical.entries = [(k, .map b)]) (hi : b.canonical.has "items" = false)
      (hq : ':' ∉ Text.firstWord k) (hid : b.canonical.text? "id" = some id) :
      Gives .keyedAction (.map m)
        (.action
          { id := id, name := b.canonical.nameUnder (some k), color := b.canonical.text? "color",
            icon := b.canonical.text? "icon", keycode := b.canonical.keycodeUnder (some k) })
  /-- A map with items that is not a single entry is a group. -/
  | group {m : Fields Value} {name : String} {items : Value}
      (hm : m.canonical.entries.length ≠ 1) (hi : m.canonical.get? "items" = some items)
      (hn : m.canonical.text? "name" = some name) :
      Gives .group (.map m)
        (.group
          { name := name, keycode := m.canonical.text? "keycode",
            icon := m.canonical.text? "icon", color := m.canonical.text? "color" }
          ["items"] items)
  /-- A map without items that is not a single entry is an action. -/
  | action {m : Fields Value} {id : String}
      (hm : m.canonical.entries.length ≠ 1) (hi : m.canonical.has "items" = false)
      (hid : m.canonical.text? "id" = some id) :
      Gives .action (.map m)
        (.action
          { id := id, name := m.canonical.text? "name", color := m.canonical.text? "color",
            icon := m.canonical.text? "icon", keycode := m.canonical.text? "keycode" })

/-- The outline of a value that is found at a position. -/
def Outline.at (p : Position) : Outline → Shape
  | .action a => .action a
  | .group head route items => .group head (some items) ⟨p.steps ++ route.map .key⟩

/-! ### The table is what is accepted -/

namespace Shape

variable {p : Position} {s : Shape}

theorem ofText_eq_ok {text : String} {keycode : Option String}
    (h : ofText p text keycode = .ok s) :
    ∃ c, CommandText.ofText? text = some c ∧
      s = .action { id := c.id, name := c.name, keycode := keycode } := by
  unfold ofText at h
  split at h
  · next c hc =>
      cases h
      exact ⟨c, hc, rfl⟩
  · cases h

theorem actionOfFields_eq_ok {m : Fields Value} (h : actionOfFields p m = .ok s) :
    ∃ id, m.text? "id" = some id ∧
      s = .action
        { id := id, name := m.text? "name", color := m.text? "color", icon := m.text? "icon",
          keycode := m.text? "keycode" } := by
  unfold actionOfFields at h
  split at h
  · next id hid =>
      cases h
      exact ⟨id, hid, rfl⟩
  · cases h

theorem actionOfKey_eq_ok {key : String} {m : Fields Value} (h : actionOfKey p key m = .ok s) :
    ∃ c, CommandText.ofText? key = some c ∧
      s = .action
        { id := c.id, name := (m.text? "name").or c.name, color := m.text? "color",
          icon := m.text? "icon", keycode := m.text? "keycode" } := by
  unfold actionOfKey at h
  split at h
  · next c hc =>
      cases h
      exact ⟨c, hc, rfl⟩
  · cases h

theorem groupOfFields_eq_ok {m : Fields Value} (h : groupOfFields p m = .ok s) :
    ∃ name, m.text? "name" = some name ∧
      s = .group
        { name := name, keycode := m.text? "keycode", icon := m.text? "icon",
          color := m.text? "color" }
        (m.get? "items") (p.key "items") := by
  unfold groupOfFields at h
  split at h
  · next name hn =>
      cases h
      exact ⟨name, hn, rfl⟩
  · cases h

/-- What is accepted below a key is in the table. -/
theorem gives_of_ofBody {m b : Fields Value} {k : String}
    (hm : m.canonical.entries = [(k, .map b)]) (h : ofBody p k b.canonical = .ok s) :
    ∃ r o, Rule.Gives r (.map m) o ∧ s = o.at p := by
  unfold ofBody at h
  split at h
  · next hi =>
      obtain ⟨items, hi⟩ := Fields.has_iff.mp hi
      obtain ⟨name, hn, rfl⟩ := groupOfFields_eq_ok h
      rw [Fields.text?_under_name] at hn
      refine ⟨_, _, .keyedGroup hm hi hn, ?_⟩
      simp [Outline.at, Fields.text?_under_keycode, Fields.text?_under_of_ne,
        Fields.get?_under_items, hi, Position.key]
  · next hi =>
      have hi : b.canonical.has "items" = false := by simpa using hi
      split at h
      · next hq =>
          obtain ⟨c, hc, rfl⟩ := actionOfKey_eq_ok h
          exact ⟨_, _, .qualifiedKey hm hi ((CommandText.isQualified_iff k).mp hq) hc, rfl⟩
      · next hq =>
          rw [CommandText.isQualified_iff] at hq
          split at h
          · obtain ⟨id, hid, rfl⟩ := actionOfFields_eq_ok h
            rw [Fields.text?_under_of_ne _ _ (by decide) (by decide)] at hid
            refine ⟨_, _, .keyedAction hm hi hq hid, ?_⟩
            simp [Outline.at, Fields.text?_under_name, Fields.text?_under_keycode,
              Fields.text?_under_of_ne]
          · cases h

/-- What is accepted as a single entry is in the table. -/
theorem gives_of_ofEntry {m : Fields Value} {k : String} {v : Value}
    (hm : m.canonical.entries = [(k, v)]) (h : ofEntry p k v = .ok s) :
    ∃ r o, Rule.Gives r (.map m) o ∧ s = o.at p := by
  cases v with
  | list vs =>
      simp only [ofEntry, groupOfKey] at h
      split at h
      · next hk =>
          cases h
          exact ⟨_, _, .namedList hm hk, rfl⟩
      · cases h
  | string t =>
      rw [ofEntry] at h
      obtain ⟨c, hc, rfl⟩ := ofText_eq_ok h
      exact ⟨_, _, .keyedCommand hm hc, rfl⟩
  | null =>
      rw [ofEntry] at h
      obtain ⟨c, hc, rfl⟩ := ofText_eq_ok h
      exact ⟨_, _, .bareCommand hm hc, rfl⟩
  | map b => exact gives_of_ofBody hm h
  | bool b => cases h
  | number n => cases h

/-- What is accepted as a record is in the table. -/
theorem gives_of_ofRecord {m : Fields Value} (hm : m.canonical.entries.length ≠ 1)
    (h : ofRecord p m.canonical = .ok s) : ∃ r o, Rule.Gives r (.map m) o ∧ s = o.at p := by
  unfold ofRecord at h
  split at h
  · next hi =>
      obtain ⟨items, hi⟩ := Fields.has_iff.mp hi
      obtain ⟨name, hn, rfl⟩ := groupOfFields_eq_ok h
      refine ⟨_, _, .group hm hi hn, ?_⟩
      simp [Outline.at, hi, Position.key]
  · next hi =>
      have hi : m.canonical.has "items" = false := by simpa using hi
      split at h
      · obtain ⟨id, hid, rfl⟩ := actionOfFields_eq_ok h
        exact ⟨_, _, .action hm hi hid, rfl⟩
      · cases h

theorem gives_of_ofValue {v : Value} (h : ofValue p v = .ok s) :
    ∃ r o, Rule.Gives r v o ∧ s = o.at p := by
  cases v with
  | string t =>
      rw [ofValue] at h
      obtain ⟨c, hc, rfl⟩ := ofText_eq_ok h
      exact ⟨_, _, .command hc, rfl⟩
  | map m =>
      simp only [ofValue, ofFields] at h
      split at h
      · next hs => exact gives_of_ofEntry (Fields.single?_eq_some_iff.mp hs) h
      · next hs => exact gives_of_ofRecord (Fields.single?_eq_none_iff.mp hs) h
  | list vs => cases h
  | null => cases h
  | bool b => cases h
  | number n => cases h

/-- What is in the table is accepted. -/
theorem ofValue_of_gives {r : Rule} {v : Value} {o : Outline} (h : Rule.Gives r v o)
    (p : Position) : ofValue p v = .ok (o.at p) := by
  cases h with
  | command hc => simp [ofValue, ofText, hc, Outline.at]
  | namedList hm hk =>
      simp [ofValue, ofFields, Fields.single?_eq_some_iff.mpr hm, ofEntry, groupOfKey, hk,
        Outline.at, Position.key]
  | keyedCommand hm hc =>
      simp [ofValue, ofFields, Fields.single?_eq_some_iff.mpr hm, ofEntry, ofText, hc, Outline.at]
  | bareCommand hm hc =>
      simp [ofValue, ofFields, Fields.single?_eq_some_iff.mpr hm, ofEntry, ofText, hc, Outline.at]
  | keyedGroup hm hi hn =>
      simp [ofValue, ofFields, Fields.single?_eq_some_iff.mpr hm, ofEntry, ofBody,
        Fields.has_iff.mpr ⟨_, hi⟩, groupOfFields, Fields.text?_under_name, hn,
        Fields.text?_under_keycode, Fields.text?_under_of_ne, Fields.get?_under_items, hi,
        Outline.at, Position.key]
  | qualifiedKey hm hi hq hc =>
      simp [ofValue, ofFields, Fields.single?_eq_some_iff.mpr hm, ofEntry, ofBody, hi,
        (CommandText.isQualified_iff _).mpr hq, actionOfKey, hc, Outline.at]
  | @keyedAction m b k id hm hi hq hid =>
      have hq : CommandText.isQualified k = false := by
        rwa [← CommandText.isQualified_iff, Bool.not_eq_true] at hq
      simp [ofValue, ofFields, Fields.single?_eq_some_iff.mpr hm, ofEntry, ofBody, hi, hq,
        Fields.has_of_text? hid, actionOfFields, Fields.text?_under_name,
        Fields.text?_under_keycode, Fields.text?_under_of_ne, hid, Outline.at]
  | group hm hi hn =>
      simp [ofValue, ofFields, Fields.single?_eq_none_iff.mpr hm, ofRecord,
        Fields.has_iff.mpr ⟨_, hi⟩, groupOfFields, hn, hi, Outline.at, Position.key]
  | action hm hi hid =>
      simp [ofValue, ofFields, Fields.single?_eq_none_iff.mpr hm, ofRecord, hi,
        Fields.has_of_text? hid, actionOfFields, hid, Outline.at]

/-- **The table is what is accepted**: a value has a shape if and only if a rule gives it the
outline of that shape. -/
theorem ofValue_eq_ok_iff {v : Value} :
    ofValue p v = .ok s ↔ ∃ r o, Rule.Gives r v o ∧ s = o.at p := by
  constructor
  · exact gives_of_ofValue
  · rintro ⟨r, o, h, rfl⟩
    exact ofValue_of_gives h p

end Shape

/-! ### No two rules speak of one value -/

theorem Rule.Gives.unique {r r' : Rule} {v : Value} {o o' : Outline} (h : Rule.Gives r v o)
    (h' : Rule.Gives r' v o') : r = r' ∧ o = o' := by
  cases h <;> cases h' <;> simp_all [Fields.has_eq_false_iff]

end CommandMenu
