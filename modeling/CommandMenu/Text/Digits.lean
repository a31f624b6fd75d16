/-! # Digits

A digit of a base up to sixteen is a decimal digit or one of the letters from `a` to `f`, in either
case.

* `digit?` is the value of a digit, `isDigitOf` tells the digits of a base.
* `numberOf` is the number that digits denote, `numberOf?` refuses a text with other characters.
-/

namespace CommandMenu.Text

/-- The value of a digit of base sixteen. -/
def digit? (c : Char) : Option Nat :=
  if c.isDigit then some (c.toNat - 48)
  else if 'a' ≤ c && c ≤ 'f' then some (c.toNat - 87)
  else if 'A' ≤ c && c ≤ 'F' then some (c.toNat - 55)
  else none

/-- Whether a character is a digit of a base up to sixteen. -/
def isDigitOf (base : Nat) (c : Char) : Bool := (digit? c).any (· < base)

/-- A number with one digit more; a character that is no digit counts as zero. -/
def pushDigit (base n : Nat) (c : Char) : Nat := base * n + (digit? c).getD 0

/-- The number that digits denote, the greatest place first. -/
def numberOf (base : Nat) (cs : List Char) : Nat := cs.foldl (pushDigit base) 0

/-- The number that a text of digits denotes.  The empty text denotes zero. -/
def numberOf? (base : Nat) (cs : List Char) : Option Nat :=
  if cs.all (isDigitOf base) then some (numberOf base cs) else none

/-- The last digit counts ones, and those in front of it count the base. -/
theorem numberOf_append_singleton (base : Nat) (cs : List Char) (c : Char) :
    numberOf base (cs ++ [c]) = pushDigit base (numberOf base cs) c :=
  List.foldl_append

end CommandMenu.Text
