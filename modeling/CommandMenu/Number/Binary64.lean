import CommandMenu.Text.Digits

/-! # Binary floating point numbers of 64 bits

The numbers a document can hold besides integers.  A finite number is kept as sign, significand
and exponent of two, so that rounding and printing are exact arithmetic on natural numbers.

* `Binary64` is the type; `Binary64.ofRatio` rounds a quotient of natural numbers to the nearest
  of its values, a tie going to the even significand.
* `Binary64.ofDecimal` rounds a decimal numeral, `Binary64.readDecimal` reads one.
* `Binary64.mul` and `Binary64.div` are the rounded product and quotient.
-/

namespace CommandMenu

/-- A power of two. -/
def twoTo (n : Nat) : Nat := Nat.pow 2 n

/-- A power of ten. -/
def tenTo (n : Nat) : Nat := Nat.pow 10 n

/-- A number of the binary64 format.  In `finite` the value is `± significand · 2 ^ exponent`,
where the significand has 53 bits, or fewer when the exponent is the least one, `-1074`. -/
inductive Binary64 where
  | finite (negative : Bool) (significand : Nat) (exponent : Int)
  | infinite (negative : Bool)
  | notANumber
deriving DecidableEq, Repr, Inhabited

namespace Binary64

/-- Zero with a sign. -/
def zero (negative : Bool) : Binary64 := .finite negative 0 (-1074)

/-- Whether the number is neither infinite nor `notANumber`. -/
def isFinite : Binary64 → Bool
  | .finite .. => true
  | _ => false

/-- The same number with the given sign. -/
def withSign (negative : Bool) : Binary64 → Binary64
  | .finite _ m e => .finite negative m e
  | .infinite _ => .infinite negative
  | .notANumber => .notANumber

/-- The greatest power of two, as exponent, that is at most `num / den`. -/
def floorLog (num den : Nat) : Int :=
  let k : Int := (Nat.log2 num : Int) - (Nat.log2 den : Int)
  if num * twoTo (-k).toNat < den * twoTo k.toNat then k - 1 else k

/-- The quotient rounded to a whole number, a tie going to the even one. -/
def roundDiv (num den : Nat) : Nat :=
  let q := num / den
  let r := num % den
  if 2 * r > den || (2 * r == den && q % 2 == 1) then q + 1 else q

/-- The binary64 number nearest to `± num / den`, a tie going to the even significand. -/
def ofRatio (negative : Bool) (num den : Nat) : Binary64 :=
  if num = 0 then zero negative
  else
    let e : Int := max (floorLog num den - 52) (-1074)
    let m := roundDiv (num * twoTo (-e).toNat) (den * twoTo e.toNat)
    let (m, e) := if m = twoTo 53 then (twoTo 52, e + 1) else (m, e)
    if e > 971 then .infinite negative else .finite negative m e

/-- The number nearest to `± digits · 10 ^ exponent`.  Numerals far outside the range are
settled by their number of digits, before any power of ten is formed. -/
def ofDecimal (negative : Bool) (digits : Nat) (exponent : Int) : Binary64 :=
  if digits = 0 then zero negative
  else
    let size : Int := (Nat.log2 digits : Int) * 30103 / 100000 + exponent
    if size > 400 then .infinite negative
    else if size < -400 then zero negative
    else ofRatio negative (digits * tenTo exponent.toNat) (tenTo (-exponent).toNat)

/-- The whole number `n`, rounded. -/
def ofNat (n : Nat) : Binary64 := ofRatio false n 1

/-- The rounded product. -/
def mul : Binary64 → Binary64 → Binary64
  | .finite s m e, .finite t n f =>
    ofRatio (s != t) (m * n * twoTo (e + f).toNat) (twoTo (-(e + f)).toNat)
  | .finite s m _, .infinite t => if m = 0 then .notANumber else .infinite (s != t)
  | .infinite s, .finite t m _ => if m = 0 then .notANumber else .infinite (s != t)
  | .infinite s, .infinite t => .infinite (s != t)
  | _, _ => .notANumber

/-- The rounded quotient of finite numbers with a divisor other than zero. -/
def div : Binary64 → Binary64 → Binary64
  | .finite s m e, .finite t n f =>
    if n = 0 then if m = 0 then .notANumber else .infinite (s != t)
    else ofRatio (s != t) (m * twoTo (e - f).toNat) (n * twoTo (f - e).toNat)
  | .infinite s, .finite t _ _ => .infinite (s != t)
  | .finite s _ _, .infinite t => zero (s != t)
  | _, _ => .notANumber

/-- Equality as numbers, except that `notANumber` equals itself: zeros of both signs are equal. -/
def same : Binary64 → Binary64 → Bool
  | .finite s m e, .finite t n f => (m == 0 && n == 0) || (s == t && m == n && e == f)
  | .infinite s, .infinite t => s == t
  | .notANumber, .notANumber => true
  | _, _ => false

/-! ### Reading decimal numerals -/

/-- A whole number with an optional sign; an empty text is none. -/
def readExponent : List Char → Option Int
  | '-' :: cs => if cs.isEmpty then none else (Text.numberOf? 10 cs).map fun n => -(n : Int)
  | '+' :: cs => if cs.isEmpty then none else (Text.numberOf? 10 cs).map fun n => (n : Int)
  | cs => if cs.isEmpty then none else (Text.numberOf? 10 cs).map fun n => (n : Int)

/-- Digits with an optional point and an optional exponent, without a sign: `12`, `1.5`, `.5`,
`5.`, `1e3`.  There must be a digit in front of the exponent. -/
def readUnsigned (negative : Bool) (cs : List Char) : Option Binary64 :=
  let whole := cs.takeWhile Char.isDigit
  let rest := cs.dropWhile Char.isDigit
  let (fraction, rest) := match rest with
    | '.' :: r => (r.takeWhile Char.isDigit, r.dropWhile Char.isDigit)
    | r => ([], r)
  if whole.isEmpty && fraction.isEmpty then none
  else
    let digits := Text.numberOf 10 (whole ++ fraction)
    let value (e : Int) := ofDecimal negative digits (e - fraction.length)
    match rest with
    | [] => some (value 0)
    | 'e' :: r => (readExponent r).map value
    | 'E' :: r => (readExponent r).map value
    | _ => none

/-- A decimal numeral with an optional sign. -/
def readDecimal : List Char → Option Binary64
  | '-' :: cs => readUnsigned true cs
  | '+' :: cs => readUnsigned false cs
  | cs => readUnsigned false cs

end Binary64
end CommandMenu
