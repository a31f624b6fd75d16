import CommandMenu.Number.Binary64

/-! # The shortest decimal that reads back

A finite binary64 number is printed with the fewest digits that still round to it, and of those
with the digits nearest to it; a tie goes to the even last digit.  The numbers that round to
`m · 2 ^ e` form an interval whose ends are half-way to the neighbours; the ends belong to it
exactly when `m` is even.

* `Binary64.shortest` gives the digits as a natural number with its power of ten.
* `NumberLayout` says how digits are laid out, `NumberLayout.render` writes them.
-/

namespace CommandMenu
namespace Binary64

/-- A decimal `digits · 10 ^ exponent`. -/
structure Decimal where
  digits : Nat
  exponent : Int
deriving DecidableEq, Repr, Inhabited

/-- The interval of numbers that round to a given one, as natural numbers over a common
denominator: the number itself is `value / den`. -/
structure Interval where
  low : Nat
  value : Nat
  high : Nat
  den : Nat
  closed : Bool

/-- The interval that rounds to `m · 2 ^ e`.  Below a power of two the neighbour is only half as
far away, unless the exponent is already the least one. -/
def interval (m : Nat) (e : Int) : Interval :=
  let up := twoTo e.toNat
  let narrow := m == twoTo 52 && e > -1074
  { low := (4 * m - (if narrow then 1 else 2)) * up
    value := 4 * m * up
    high := (4 * m + 2) * up
    den := 4 * twoTo (-e).toNat
    closed := m % 2 == 0 }

/-- Whether the decimal lies in the interval. -/
def Interval.holds (i : Interval) (d : Decimal) : Bool :=
  let num := d.digits * tenTo d.exponent.toNat * i.den
  let scale := tenTo (-d.exponent).toNat
  if i.closed then i.low * scale ≤ num && num ≤ i.high * scale
  else i.low * scale < num && num < i.high * scale

/-- The better of the two decimals with exponent `k` next to the number, if one lies in the
interval: of two, the nearer one, and the one with an even last digit if both are as near. -/
def Interval.pick? (i : Interval) (k : Int) : Option Decimal :=
  let num := i.value * tenTo (-k).toNat
  let den := i.den * tenTo k.toNat
  let q := num / den
  let below : Decimal := ⟨q, k⟩
  let above : Decimal := ⟨q + 1, k⟩
  let r := 2 * (num % den)
  match i.holds below && q != 0, i.holds above with
  | true, true => some (if r < den || (r == den && q % 2 == 0) then below else above)
  | true, false => some below
  | false, true => some above
  | false, false => none

/-- The decimals with exponents `top`, `top - 1`, … are tried until one fits. -/
def Interval.search (i : Interval) : Nat → Int → Decimal
  | 0, k => ⟨i.value * tenTo (-k).toNat / (i.den * tenTo k.toNat), k⟩
  | n + 1, k => (i.pick? k).getD (i.search n (k - 1))

/-- Drops trailing zeros of the digits. -/
def Decimal.strip : Nat → Decimal → Decimal
  | 0, d => d
  | n + 1, d =>
    if d.digits != 0 && d.digits % 10 == 0 then strip n ⟨d.digits / 10, d.exponent + 1⟩ else d

/-- The shortest decimal that rounds to `m · 2 ^ e`.  The search starts above the number's own
size, where no decimal fits, and seventeen digits always suffice. -/
def shortest (m : Nat) (e : Int) : Decimal :=
  if m = 0 then ⟨0, 0⟩
  else
    let size : Int := ((Nat.log2 m : Int) + e) * 30103 / 100000
    ((interval m e).search 22 (size + 2)).strip 25

end Binary64

/-- How a number is laid out.  With `d` digits in front of the point (which is negative or zero
when zeros follow the point), the number is written without an exponent when `d` is above
`below?` and at most `above?`. -/
structure NumberLayout where
  below? : Option Int
  above? : Option Int
  infinity : String
  notANumber : String

namespace NumberLayout

/-- Documents and JSON write an exponent from sixteen digits on and below `0.00001`. -/
def document : NumberLayout := ⟨some (-5), some 16, ".inf", ".nan"⟩

/-- Messages about settings never write an exponent. -/
def plain : NumberLayout := ⟨none, none, "inf", "NaN"⟩

/-- Whether a number with `point` digits in front of the point is written without exponent. -/
def isPositional (l : NumberLayout) (point : Int) : Bool :=
  (match l.below? with | some b => b < point | none => true) &&
  (match l.above? with | some a => point ≤ a | none => true)

/-- `n` zeros. -/
def zeros (n : Nat) : String := String.ofList (List.replicate n '0')

/-- Digits with a point in them or behind them, always with a digit on both sides of it. -/
def positional (digits : String) (exponent : Int) : String :=
  let point : Int := digits.length + exponent
  if 0 ≤ exponent then digits ++ zeros exponent.toNat ++ ".0"
  else if 0 < point then
    String.ofList (digits.toList.take point.toNat) ++ "." ++
      String.ofList (digits.toList.drop point.toNat)
  else "0." ++ zeros (-point).toNat ++ digits

/-- One digit, the rest behind a point, and the power of ten. -/
def scientific (digits : String) (exponent : Int) : String :=
  let point : Int := digits.length + exponent
  let tail := digits.toList.drop 1
  String.ofList (digits.toList.take 1) ++
    (if tail.isEmpty then "" else "." ++ String.ofList tail) ++ "e" ++ toString (point - 1)

/-- The text of a number in this layout. -/
def render (l : NumberLayout) : Binary64 → String
  | .notANumber => l.notANumber
  | .infinite negative => (if negative then "-" else "") ++ l.infinity
  | .finite negative m e =>
    let d := Binary64.shortest m e
    let digits := toString d.digits
    let point : Int := digits.length + d.exponent
    (if negative then "-" else "") ++
      (if m = 0 then "0.0"
       else if l.isPositional point then positional digits d.exponent
       else scientific digits d.exponent)

end NumberLayout
end CommandMenu
