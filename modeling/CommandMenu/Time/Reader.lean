import CommandMenu.Text.Blank
import CommandMenu.Text.Digits
import CommandMenu.Time.Instant

/-! # Reading points of time

A point of time is written as date, time of day and offset.  The reading is generous: numbers need
not be padded, white space may stand around them, and the date is set off by a letter or a blank.

* `Instant.read?` is the point of time that a text denotes.
-/

namespace CommandMenu.Instant

/-! ### Numbers and marks -/

/-- Reads a number of at most `width` digits. -/
def readDigits (width : Nat) (cs : List Char) : Option (Nat × List Char) :=
  let digits := (cs.take width).takeWhile Char.isDigit
  if digits.isEmpty then none
  else some (Text.numberOf 10 digits, cs.drop digits.length)

/-- Reads a number of at most two digits behind white space. -/
def readField (cs : List Char) : Option (Nat × List Char) := readDigits 2 (Text.trimStart cs)

/-- Reads a year behind white space.  It has at most four digits unless it has a sign. -/
def readYear (cs : List Char) : Option (Int × List Char) :=
  match Text.trimStart cs with
  | '-' :: rest => (readDigits rest.length rest).map fun (n, rest) => (-(n : Int), rest)
  | '+' :: rest => (readDigits rest.length rest).map fun (n, rest) => ((n : Int), rest)
  | rest => (readDigits 4 rest).map fun (n, rest) => ((n : Int), rest)

/-- Moves over a mark behind white space. -/
def readMark (mark : Char) (cs : List Char) : Option (List Char) :=
  match Text.trimStart cs with
  | c :: rest => if c = mark then some rest else none
  | [] => none

/-! ### Parts -/

/-- Reads a date. -/
def readDate (cs : List Char) : Option (Date × List Char) := do
  let (year, cs) ← readYear cs
  let cs ← readMark '-' cs
  let (month, cs) ← readField cs
  let cs ← readMark '-' cs
  let (day, cs) ← readField cs
  let date : Date := ⟨year, month, day⟩
  if date.isValid then some (date, cs) else none

/-- Reads the fraction of a second.  Digits behind the ninth do not count. -/
def readFraction : List Char → Option (Nat × List Char)
  | '.' :: cs => do
    let (n, rest) ← readDigits 9 cs
    let given := cs.length - rest.length
    return (n * Nat.pow 10 (9 - given), rest.dropWhile Char.isDigit)
  | cs => some (0, cs)

/-- Reads a time of day, as seconds and nanoseconds.  The second 60 is a late one. -/
def readTime (cs : List Char) : Option ((Nat × Nat) × List Char) := do
  let (hour, cs) ← readField cs
  let cs ← readMark ':' cs
  let (minute, cs) ← readField cs
  let cs ← readMark ':' cs
  let (second, cs) ← readField cs
  let (nanos, cs) ← readFraction cs
  if hour < 24 && minute < 60 && second ≤ 60 then
    let late := if second = 60 then 1 else 0
    return ((hour * 3600 + minute * 60 + second - late, nanos + late * nanosPerSecond), cs)
  else none

/-- Reads two digits that form a number below `bound`. -/
def readPair (bound : Nat) : List Char → Option (Nat × List Char)
  | a :: b :: rest =>
    ((Text.numberOf? 10 [a, b]).filter (· < bound)).map fun n => (n, rest)
  | _ => none

/-- Reads the hours and minutes of an offset behind its sign, as seconds. -/
def readOffsetTime (cs : List Char) : Option (Int × List Char) := do
  let (hours, cs) ← readPair 100 cs
  let (minutes, cs) ← readPair 60 (cs.dropWhile fun c => c = ':' || Text.isBlank c)
  return ((hours * 3600 + minutes * 60 : Nat), cs)

/-- Reads the offset of a time from universal time, in seconds. -/
def readOffset (cs : List Char) : Option (Int × List Char) :=
  let cs := Text.trimStart cs
  if (cs.take 3).map Char.toUpper = ['U', 'T', 'C'] then some (0, cs.drop 3)
  else match cs with
    | 'Z' :: rest => some (0, rest)
    | 'z' :: rest => some (0, rest)
    | '+' :: rest => readOffsetTime rest
    | '-' :: rest => (readOffsetTime rest).map fun (n, rest) => (-n, rest)
    | '\u2212' :: rest => (readOffsetTime rest).map fun (n, rest) => (-n, rest)
    | _ => none

/-- Moves over the letter or blank between date and time. -/
def readGap : List Char → Option (List Char)
  | c :: rest => if c = 't' || c = 'T' || c = ' ' then some rest else none
  | [] => none

/-- The point of time that a text denotes.  Its day must be one of the calendar in universal time
too. -/
def read? (text : String) : Option Instant := do
  let (date, cs) ← readDate text.toList
  let cs ← readGap cs
  let ((second, nanos), cs) ← readTime cs
  let (offset, cs) ← readOffset cs
  let seconds := date.dayNumber * 86400 + (second : Int) - offset
  let year := (Date.ofDayNumber (seconds / 86400)).year
  if (Text.trimStart cs).isEmpty && offset.natAbs < 86400 && Date.firstYear ≤ year &&
      year ≤ Date.lastYear then
    return ⟨seconds, nanos⟩
  else none

end CommandMenu.Instant
