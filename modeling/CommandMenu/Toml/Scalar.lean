import CommandMenu.Number.Binary64

/-! # Values without parts

* `Toml.Scalar` is what a word or a quoted text denotes.
* `Toml.Scalar.kind` is the name of its kind.
-/

namespace CommandMenu.Toml

/-- A value without parts.  A number that is too great has no value. -/
inductive Scalar where
  | text (value : String)
  | integer (value : Option Int)
  | real (value : Option Binary64)
  | boolean (value : Bool)
  | moment
deriving DecidableEq, Repr

/-- The name of a kind of value. -/
def Scalar.kind : Scalar → String
  | .text _ => "string"
  | .integer _ => "integer"
  | .real _ => "float"
  | .boolean _ => "boolean"
  | .moment => "datetime"

end CommandMenu.Toml
