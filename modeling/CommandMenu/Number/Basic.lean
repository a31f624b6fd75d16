import CommandMenu.Number.Shortest

/-! # Numbers of a document

A document distinguishes whole numbers from floating point numbers: `1` and `1.0` are different
values with different texts.

* `Number.isWord` and `Number.isDoubleWord` bound the integers that are taken as such.
* `Number.render` is the text of a number, which also stands for it as a key or a field.
* `Number.same` is equality of values, where all zeros of the floating kind are one.
-/

namespace CommandMenu

/-- A number as a document holds it. -/
inductive Number where
  | integer (value : Int)
  | real (value : Binary64)
deriving DecidableEq, Repr, Inhabited

namespace Number

/-- Whether an integer has 64 bits, with or without a sign. -/
def isWord (i : Int) : Bool := -9223372036854775808 ≤ i && i < 18446744073709551616

/-- Whether an integer has 128 bits, with or without a sign. -/
def isDoubleWord (i : Int) : Bool :=
  -170141183460469231731687303715884105728 ≤ i && i < 340282366920938463463374607431768211456

/-- Whether an integer has 128 bits with a sign. -/
def isSignedDoubleWord (i : Int) : Bool :=
  -170141183460469231731687303715884105728 ≤ i && i < 170141183460469231731687303715884105728

/-- The decimal text of a number. -/
def render : Number → String
  | .integer i => toString i
  | .real x => NumberLayout.document.render x

/-- Equality as values: an integer never equals a floating point number. -/
def same : Number → Number → Bool
  | .integer i, .integer j => i == j
  | .real x, .real y => x.same y
  | _, _ => false

end Number
end CommandMenu
