import CommandMenu.Text.Digits
import CommandMenu.Time.Instant

/-! # Points of time in a TOML text

A point of time is a date, a time of day, or both, and both may have an offset from universal time.

* `Moment.Sign` are the signs that a point of time is written in, `Moment.signs` cuts them.
* `Moment.check` says whether some characters are a point of time.
* `Moment.Defect` says what is wrong with them, `Moment.Defect.text` is the wording.
-/

namespace CommandMenu.Toml.Moment

/-! ### What can be wrong -/

/-- A part of a point of time. -/
inductive Part where
  | date
  | time
  | offset
deriving DecidableEq, Repr

/-- The name of a part. -/
def Part.name : Part → String
  | .date => "date"
  | .time => "time"
  | .offset => "offset"

/-- A number of a point of time. -/
inductive Field where
  | year
  | month
  | day
  | hour
  | minute
  | second
  | nanosecond
deriving DecidableEq, Repr

namespace Field

/-- The name of a number. -/
def name : Field → String
  | .year => "year"
  | .month => "month"
  | .day => "day"
  | .hour => "hour"
  | .minute => "minute"
  | .second => "second"
  | .nanosecond => "nanosecond"

/-- The number of its digits, if that is fixed. -/
def width : Field → Nat
  | .year => 4
  | _ => 2

/-- How a pattern writes a number. -/
def pattern : Field → String
  | .year => "a four-digit year (YYYY)"
  | .month => "a two-digit month (MM)"
  | .day => "a two-digit day (DD)"
  | .hour => "a two-digit hour (HH)"
  | .minute => "a two-digit minute (MM)"
  | .second => "a two-digit second (SS)"
  | .nanosecond => "nanoseconds"

end Field

/-- Why some characters are not a point of time. -/
inductive Defect where
  | missingStart
  | missingSeparator
  | missingDash
  | missingLetter
  | missingColon (part : Part)
  | missingOffset
  | missing (part : Part) (field : Field)
  | wrongWidth (part : Part) (field : Field)
  | outOfRange (part : Part) (field : Field) (least greatest : Nat)
  | leftOver
deriving DecidableEq, Repr

/-- The wording of a defect. -/
def Defect.text : Defect → String
  | .missingStart => "invalid datetime, expected year or hour"
  | .missingSeparator => "invalid datetime, expected `-` (YYYY-MM) or `:` (HH:MM)"
  | .missingDash => "invalid date, expected `-` (MM-DD)"
  | .missingLetter => "invalid date-time, expected `T` between date and time"
  | .missingColon part => "invalid " ++ part.name ++ ", expected `:` (HH:MM)"
  | .missingOffset => "invalid offset, expected `Z`, +OFFSET, -OFFSET"
  | .missing part field => "invalid " ++ part.name ++ ", expected " ++ field.name
  | .wrongWidth part field => "invalid " ++ part.name ++ ", expected " ++ field.pattern
  | .outOfRange part field least greatest =>
    "invalid " ++ part.name ++ ", expected " ++ field.name ++
      (if part = .offset then "s" else "") ++ " between " ++ Instant.padded 2 least ++ " and " ++
      Instant.padded 2 greatest
  | .leftOver => "invalid datetime"

/-! ### Signs -/

/-- A sign of a point of time.  The letters may be written small. -/
inductive Sign where
  | digits (text : List Char)
  | dash
  | colon
  | point
  | plus
  | space
  | letterT
  | letterZ
  | other
deriving DecidableEq, Repr

/-- The sign that a character is, unless it is a digit. -/
def Sign.ofChar (c : Char) : Sign :=
  if c == '-' then .dash
  else if c == ':' then .colon
  else if c == '.' then .point
  else if c == '+' then .plus
  else if c == ' ' then .space
  else if c == 'T' || c == 't' then .letterT
  else if c == 'Z' || c == 'z' then .letterZ
  else .other

/-- Puts a character in front of some signs. -/
def Sign.cons (c : Char) (signs : List Sign) : List Sign :=
  if !c.isDigit then .ofChar c :: signs
  else match signs with
    | .digits ds :: rest => .digits (c :: ds) :: rest
    | _ => .digits [c] :: signs

/-- The signs of some characters. -/
def signs (cs : List Char) : List Sign := cs.foldr Sign.cons []

/-! ### Reading -/

/-- Reads a number. -/
def takeDigits (part : Part) (field : Field) :
    List Sign → Except Defect (List Char × List Sign)
  | .digits ds :: rest => .ok (ds, rest)
  | _ => .error (.missing part field)

/-- Reads a sign. -/
def takeSign (sign : Sign) (missing : Defect) : List Sign → Except Defect (List Sign)
  | s :: rest => if s = sign then .ok rest else .error missing
  | [] => .error missing

/-- Checks the number of digits. -/
def checkWidth (part : Part) (field : Field) (digits : List Char) : Except Defect Unit :=
  if digits.length = field.width then .ok () else .error (.wrongWidth part field)

/-- Checks the range of a number. -/
def checkRange (part : Part) (field : Field) (least greatest : Nat) (digits : List Char) :
    Except Defect Unit :=
  let n := Text.numberOf 10 digits
  if least ≤ n && n ≤ greatest then .ok () else .error (.outOfRange part field least greatest)

/-- Reads a date behind its year and the hyphen. -/
def takeDate (year : List Char) (signs : List Sign) : Except Defect (List Sign) := do
  let (month, signs) ← takeDigits .date .month signs
  let signs ← takeSign .dash .missingDash signs
  let (day, signs) ← takeDigits .date .day signs
  checkWidth .date .year year
  checkWidth .date .month month
  checkWidth .date .day day
  checkRange .date .month 1 12 month
  let days := Date.daysOfMonth (Text.numberOf 10 year) (Text.numberOf 10 month)
  checkRange .date .day 1 days day
  return signs

/-- Reads the seconds of a time of day with their fraction, or nothing. -/
def takeSeconds (signs : List Sign) : Except Defect (Option (List Char) × List Sign) :=
  match signs with
  | .colon :: rest => do
    let (second, rest) ← takeDigits .time .second rest
    match rest with
    | .point :: rest =>
      let (_, rest) ← takeDigits .time .nanosecond rest
      return (some second, rest)
    | _ => return (some second, rest)
  | _ => .ok (none, signs)

/-- Reads a time of day, whose seconds may be left out. -/
def takeTime (signs : List Sign) : Except Defect (List Sign) := do
  let (hour, signs) ← takeDigits .time .hour signs
  let signs ← takeSign .colon (.missingColon .time) signs
  let (minute, signs) ← takeDigits .time .minute signs
  let (second, signs) ← takeSeconds signs
  checkWidth .time .hour hour
  checkWidth .time .minute minute
  second.forM (checkWidth .time .second)
  checkRange .time .hour 0 23 hour
  checkRange .time .minute 0 59 minute
  second.forM (checkRange .time .second 0 60)
  return signs

/-- Reads the hours and minutes of an offset behind its sign. -/
def takeOffsetDigits (signs : List Sign) : Except Defect (List Sign) := do
  let (hour, signs) ← takeDigits .offset .hour signs
  let signs ← takeSign .colon (.missingColon .offset) signs
  let (minute, signs) ← takeDigits .offset .minute signs
  checkWidth .offset .hour hour
  checkWidth .offset .minute minute
  checkRange .offset .hour 0 23 hour
  checkRange .offset .minute 0 59 minute
  return signs

/-- Reads an offset from universal time, or nothing. -/
def takeOffset : List Sign → Except Defect (List Sign)
  | [] => .ok []
  | .letterZ :: rest => .ok rest
  | .plus :: rest => takeOffsetDigits rest
  | .dash :: rest => takeOffsetDigits rest
  | _ => .error .missingOffset

/-- Checks that nothing is left. -/
def checkEnd (signs : List Sign) : Except Defect Unit :=
  if signs.isEmpty then .ok () else .error .leftOver

/-- Checks what follows a date: nothing, or a time of day. -/
def checkBehindDate : List Sign → Except Defect Unit
  | [] => .ok ()
  | sign :: rest =>
    if sign = .letterT || sign = .space then do checkEnd (← takeOffset (← takeTime rest))
    else .error .missingLetter

/-- Checks that some characters are a point of time. -/
def check (cs : List Char) : Except Defect Unit :=
  match signs cs with
  | .digits first :: .dash :: rest => do checkBehindDate (← takeDate first rest)
  | .digits first :: .colon :: rest => do checkEnd (← takeTime (.digits first :: .colon :: rest))
  | .digits _ :: _ => .error .missingSeparator
  | _ => .error .missingStart

end CommandMenu.Toml.Moment
