import CommandMenu.Number.Basic
import CommandMenu.Yaml.Tag

/-! # YAML values

What a YAML document denotes once anchors and styles are gone.  Tags of one's own are still there,
and any value may be a key.

* `Yaml.Value` is the type.
* `Yaml.Value.same` is equality of values, by which a repeated key is recognised: the order of the
  entries of a mapping does not count.
-/

namespace CommandMenu.Yaml

/-- A value of a YAML document. -/
inductive Value where
  | null
  | bool (value : Bool)
  | number (value : Number)
  | string (value : String)
  | sequence (items : List Value)
  | mapping (entries : List (Value × Value))
  | tagged (tag : Tag) (value : Value)
deriving Repr, BEq, Inhabited

mutual

/-- Equality of values. -/
def Value.same : Value → Value → Bool
  | .null, .null => true
  | .bool a, .bool b => a == b
  | .number a, .number b => a.same b
  | .string a, .string b => a == b
  | .sequence a, .sequence b => Value.sameItems a b
  | .mapping a, .mapping b => a.length == b.length && Value.sameEntries a b
  | .tagged s a, .tagged t b => s.same t && a.same b
  | _, _ => false

/-- Equality of lists of values, item by item. -/
def Value.sameItems : List Value → List Value → Bool
  | [], [] => true
  | a :: as, b :: bs => a.same b && Value.sameItems as bs
  | _, _ => false

/-- Whether each entry of the first mapping has its like in the second one. -/
def Value.sameEntries : List (Value × Value) → List (Value × Value) → Bool
  | [], _ => true
  | (k, v) :: rest, bs => bs.any (fun e => k.same e.1 && v.same e.2) && Value.sameEntries rest bs

end

end CommandMenu.Yaml
