import CommandMenu.Number.Basic
import CommandMenu.Text.Digits

/-! # The value of a JSON numeral

A numeral without point and exponent is an integer of 64 bits if it fits; every other one is a
floating point number.  Its digits are collected into a number of 64 bits, behind which further
digits count for their place only.  That number is then multiplied with, or divided by, a power of
ten, each step being rounded; so the result may differ from the nearest number in its last digit.

* `Numeral` is a numeral as written, `Numeral.number?` its value; a numeral that exceeds all numbers
  has none.
-/

namespace CommandMenu.Json

/-- A numeral: its sign, the digits in front of the point, the digits behind it, and the exponent
as its sign and its digits. -/
structure Numeral where
  negative : Bool
  whole : List Char
  fraction : Option (List Char)
  exponent : Option (Bool × List Char)
deriving DecidableEq, Repr

namespace Numeral

/-- The greatest number of 64 bits. -/
def maxWord : Nat := 18446744073709551615

/-- Appends digits to a number as long as it has 64 bits; the rest is counted. -/
def gather : List Char → Nat → Nat × Nat
  | [], n => (n, 0)
  | c :: rest, n =>
    let next := Text.pushDigit 10 n c
    if next > maxWord then (n, rest.length + 1) else gather rest next

/-- Appends digits behind the point as long as the number has 64 bits, and counts those used. -/
def gatherFraction : List Char → Nat → Nat → Nat × Nat
  | [], n, used => (n, used)
  | c :: rest, n, used =>
    let next := Text.pushDigit 10 n c
    if next > maxWord then (n, used) else gatherFraction rest next (used + 1)

/-- The greatest power of ten that is used in one step. -/
def stepLimit : Nat := 308

/-- Divides `n` times by the greatest power of ten that is used in one step. -/
def divideSteps : Nat → Binary64 → Binary64
  | 0, x => x
  | n + 1, x => divideSteps n (x.div (.ofNat (tenTo stepLimit)))

/-- Multiplies with a power of ten, or divides by one, in steps of at most `10 ^ 308`.  A product
beyond all numbers is refused.  Three steps down lead from every number of 64 bits to zero. -/
def scale (x : Binary64) (exponent : Int) : Option Binary64 :=
  if exponent ≥ 0 then
    if exponent ≤ stepLimit then
      let y := x.mul (.ofNat (tenTo exponent.toNat))
      if y.isFinite then some y else none
    else if x.same (.zero false) then some x else none
  else
    let steps := ((-exponent).toNat - 1) / stepLimit
    let rest := (-exponent).toNat - steps * stepLimit
    some ((divideSteps (min steps 3) x).div (.ofNat (tenTo rest)))

/-- The exponent as a number; one that exceeds 32 bits is settled by its sign alone. -/
def exponentValue : Option (Bool × List Char) → Int
  | none => 0
  | some (negative, digits) =>
    let n : Int := Text.numberOf 10 digits
    if negative then -n else n

/-- Whether an exponent exceeds 32 bits. -/
def isHuge (exponent : Int) : Bool := exponent.natAbs > 2147483647

/-- The floating point value of collected digits. -/
def realValue (negative : Bool) (digits : Nat) (shift : Int) (exponent : Int) :
    Option Number :=
  let signed (x : Binary64) : Number := .real (x.withSign negative)
  if isHuge exponent then
    if digits = 0 || exponent < 0 then some (signed (.zero false)) else none
  else (scale (.ofNat digits) (shift + exponent)).map signed

/-- The value of a numeral, unless it exceeds all numbers. -/
def number? (n : Numeral) : Option Number :=
  let (digits, dropped) := gather n.whole 0
  match n.fraction, n.exponent with
  | none, none =>
    if dropped > 0 then realValue n.negative digits dropped 0
    else if !n.negative then some (.integer digits)
    else if digits = 0 || digits > 9223372036854775808 then realValue true digits 0 0
    else some (.integer (-(digits : Int)))
  | some fraction, exponent =>
    let (digits, used) := gatherFraction fraction digits 0
    realValue n.negative digits ((dropped : Int) - used) (exponentValue exponent)
  | none, exponent => realValue n.negative digits dropped (exponentValue exponent)

end Numeral
end CommandMenu.Json
