import CommandMenu.Number.Basic
import CommandMenu.Text.Blank
import CommandMenu.Value.Fields

/-! # Values of a menu document

What a menu is built from: a document without its spelling.  Tags are gone and keys are texts.

* `Value` is the type, `Value.kind` names the shape of a value in messages.
* `Value.text?` is the text of a scalar; `Fields.text?` is the text of a field, which counts only
  if there is more than white space in it.
-/

namespace CommandMenu

/-- A value of a menu document. -/
inductive Value where
  | null
  | bool (value : Bool)
  | number (value : Number)
  | string (value : String)
  | list (items : List Value)
  | map (fields : Fields Value)
deriving Repr, BEq, Inhabited

namespace Value

/-- The shape of a value, as messages name it. -/
def kind : Value → String
  | .null => "null"
  | .bool _ => "a boolean"
  | .number _ => "a number"
  | .string _ => "a string"
  | .list _ => "a list"
  | .map _ => "a map"

/-- The text of a scalar; null has none. -/
def text? : Value → Option String
  | .string s => some s
  | .number n => some n.render
  | .bool b => some (if b then "true" else "false")
  | .null | .list _ | .map _ => none

end Value

/-- The text of a field that is a scalar with more than white space in its text. -/
def Fields.text? (m : Fields Value) (key : String) : Option String :=
  (m.get? key).bind fun v => v.text?.bind Text.nonBlank

theorem Fields.has_of_text? {m : Fields Value} {key text : String} (h : m.text? key = some text) :
    m.has key = true := by
  unfold Fields.text? at h
  obtain ⟨v, hv, -⟩ := Option.bind_eq_some_iff.mp h
  exact Fields.has_iff.mpr ⟨v, hv⟩

theorem Fields.text?_insert (m : Fields Value) (key key' : String) (v : Value) :
    (m.insert key v).text? key' =
      if key = key' then v.text?.bind Text.nonBlank else m.text? key' := by
  unfold Fields.text?
  rw [Fields.get?_insert]
  split <;> rfl

end CommandMenu
