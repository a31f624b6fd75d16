import CommandMenu.Number.Basic
import CommandMenu.Settings.Basic
import CommandMenu.Text.Quoted
import CommandMenu.Toml.Document

/-! # Settings from a TOML text

A settings file is a TOML table.  Keys that mean nothing are passed over; a key that is known must
have a value of the right kind.  The sizes are a table of their own, or a list of them in order.
Keys are looked at in ascending order, and no number may be too great, not even one that means
nothing.

* `Toml.Value.checkNumbers` looks for numbers that are too great.
* `Settings.ofToml` are the settings that a text sets.
-/

namespace CommandMenu

open Toml (Located Failure)

namespace Toml

/-- The kind of a value, as messages name it. -/
def Value.found : Value → String
  | .scalar (.text s) => "string " ++ Text.quote s
  | .scalar (.integer i) =>
    let i := i.getD 0
    "integer `" ++ toString i ++ "`" ++
      (if Number.isWord i then ""
        else if Number.isSignedDoubleWord i then " as i128"
        else " as u128")
  | .scalar (.real x) => "floating point `" ++ NumberLayout.plain.render (x.getD .notANumber) ++ "`"
  | .scalar (.boolean b) => "boolean `" ++ (if b then "true" else "false") ++ "`"
  | .scalar .moment => "map"
  | .list _ _ => "sequence"
  | .table _ _ => "map"

mutual

/-- Refuses a value that is, or has a part that is, a number that is too great. -/
def Value.checkNumbers (span : Span) : Value → Except Failure Unit
  | .scalar (.integer none) => refuse .hugeInteger span
  | .scalar (.real none) => refuse .hugeFloat span
  | .scalar _ => .ok ()
  | .list items _ => checkItems items
  | .table _ entries => checkEntries entries

/-- Refuses the items of a list that hold a number that is too great. -/
def checkItems : List (Located Value) → Except Failure Unit
  | [] => .ok ()
  | ⟨v, span⟩ :: rest => do
    v.checkNumbers span
    checkItems rest

/-- Refuses the entries of a table that hold a number that is too great. -/
def checkEntries : List (String × Located Value) → Except Failure Unit
  | [] => .ok ()
  | (_, ⟨v, span⟩) :: rest => do
    v.checkNumbers span
    checkEntries rest

end

end Toml

namespace Settings

/-- Refuses a value of the wrong kind. -/
def wrongKind {α : Type} (v : Located Toml.Value) (wanted : String) : Except Failure α := do
  match v.value with
  | .scalar _ => v.value.checkNumbers v.span
  | _ => pure ()
  Toml.refuse (.wrongKind v.value.found wanted) v.span

/-- The text that a value is. -/
def textOf (wanted : String) (v : Located Toml.Value) : Except Failure String :=
  match v.value with
  | .scalar (.text s) => .ok s
  | _ => wrongKind v wanted

/-- The sizes with one more entry of their table. -/
def setSize (s : Sizes) (key : String) (v : Located Toml.Value) : Except Failure Sizes := do
  match key with
  | "radius" => return { s with radius := ← textOf "a string" v }
  | "button_size" => return { s with buttonSize := ← textOf "a string" v }
  | _ =>
    v.value.checkNumbers v.span
    return s

/-- The sizes that a value is.  A point of time is taken as a table without sizes. -/
def sizesOf (v : Located Toml.Value) : Except Failure Sizes :=
  match v.value with
  | .table _ entries => entries.foldlM (fun s (key, v) => setSize s key v) {}
  | .list items _ => do
    let radius ← items[0]?.mapM (textOf "a string")
    let buttonSize ← items[1]?.mapM (textOf "a string")
    return { radius, buttonSize }
  | .scalar .moment => .ok {}
  | _ => wrongKind v "struct RadialMenuPatch"

/-- The settings with one more entry of their table. -/
def setEntry (s : Settings) (key : String) (v : Located Toml.Value) : Except Failure Settings := do
  match key with
  | "configuration_path" => return { s with menuFile := ← textOf "path string" v }
  | "radial_menu" => return { s with sizes := ← sizesOf v }
  | _ =>
    v.value.checkNumbers v.span
    return s

/-- The settings that a text sets. -/
def ofToml (text : String) : Except Failure Settings := do
  let t ← Toml.read text
  t.entries.foldlM (fun s (key, v) => setEntry s key v) {}

end Settings
end CommandMenu
