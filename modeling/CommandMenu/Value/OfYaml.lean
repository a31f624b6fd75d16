import CommandMenu.Fault.Basic
import CommandMenu.Value.Basic
import CommandMenu.Value.Position
import CommandMenu.Yaml.Expand

/-! # From YAML values to values of a menu document

A YAML value becomes a value of a menu document: tags are dropped, and keys become texts.  A key
that is null or a collection has no text, and the document is refused at the position of the mapping
that holds it.

* `Yaml.Value.keyText?` is the text of a key.
* `Value.ofYaml` converts a value, `Value.read` the text of a YAML document.
-/

namespace CommandMenu

/-- The text of a scalar key, below its tags. -/
def Yaml.Value.keyText? : Yaml.Value → Option String
  | .string s => some s
  | .number n => some n.render
  | .bool b => some (if b then "true" else "false")
  | .tagged _ v => v.keyText?
  | .null | .sequence _ | .mapping _ => none

namespace Value

mutual

/-- The value of a YAML value that is found at a position. -/
def ofYaml (p : Position) : Yaml.Value → Except Fault Value
  | .null => .ok .null
  | .bool b => .ok (.bool b)
  | .number n => .ok (.number n)
  | .string s => .ok (.string s)
  | .sequence items => do return .list (← ofYamlItems p 0 items)
  | .mapping entries => do return .map (← ofYamlEntries p entries Fields.empty)
  | .tagged _ v => ofYaml p v

/-- The values of the items of a sequence from a number on. -/
def ofYamlItems (p : Position) : Nat → List Yaml.Value → Except Fault (List Value)
  | _, [] => .ok []
  | i, v :: rest => do
    let w ← ofYaml (p.index i) v
    let ws ← ofYamlItems p (i + 1) rest
    return w :: ws

/-- The fields of a mapping behind those read so far.  Each key is looked at just before its
value. -/
def ofYamlEntries (p : Position) :
    List (Yaml.Value × Yaml.Value) → Fields Value → Except Fault (Fields Value)
  | [], m => .ok m
  | (k, v) :: rest, m =>
    match k.keyText? with
    | none => .error (.unusableKey p.display)
    | some key => do
      let w ← ofYaml (p.key key) v
      ofYamlEntries p rest (m.insert key w)

end

/-- The value of a text that holds one YAML document. -/
def read (text : String) : Except Fault Value :=
  match Yaml.read text with
  | .error failure => .error (.yaml failure)
  | .ok v => ofYaml Position.root v

end Value
end CommandMenu
