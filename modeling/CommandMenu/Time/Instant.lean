/-! # Points of time

A point of time is counted from the beginning of 1970 in universal time.  A second that ends an hour
or minute late is written as a surplus of nanoseconds on the second before it.

* `Date` is a day of the calendar, `Date.dayNumber` and `Date.ofDayNumber` count the days.
* `Instant` is a point of time, `Instant.before` the order of such points.
* `Instant.render` writes a point of time with as few digits of the fraction as it needs.
-/

namespace CommandMenu

/-! ### Days -/

/-- A day of the calendar. -/
structure Date where
  year : Int
  month : Nat
  day : Nat
deriving DecidableEq, Repr

namespace Date

/-- Every fourth year is longer, except for three of four centuries. -/
def isLeapYear (year : Int) : Bool := year % 4 = 0 && (year % 100 ≠ 0 || year % 400 = 0)

/-- The number of days of a month. -/
def daysOfMonth (year : Int) (month : Nat) : Nat :=
  if month = 2 then (if isLeapYear year then 29 else 28)
  else if month = 4 || month = 6 || month = 9 || month = 11 then 30
  else 31

/-- The first year that can be told. -/
def firstYear : Int := -262143

/-- The last year that can be told. -/
def lastYear : Int := 262142

/-- Whether the calendar has this day, in a year that can be told. -/
def isValid (d : Date) : Bool :=
  firstYear ≤ d.year && d.year ≤ lastYear && 1 ≤ d.month && d.month ≤ 12 && 1 ≤ d.day &&
    d.day ≤ daysOfMonth d.year d.month

/-- The number of days from the first of March of the year 0 to the first of January 1970. -/
def epoch : Int := 719468

/-- The number of days since the beginning of 1970.  Years are counted from March, so that the
surplus day comes last. -/
def dayNumber (d : Date) : Int :=
  let year := if d.month ≤ 2 then d.year - 1 else d.year
  let month : Int := if d.month ≤ 2 then d.month + 9 else d.month - 3
  let cycle := year / 400
  let yearOfCycle := year - cycle * 400
  let dayOfYear := (153 * month + 2) / 5 + d.day - 1
  cycle * 146097 + (yearOfCycle * 365 + yearOfCycle / 4 - yearOfCycle / 100 + dayOfYear) - epoch

/-- The day with a number. -/
def ofDayNumber (n : Int) : Date :=
  let days := n + epoch
  let cycle := days / 146097
  let dayOfCycle := days - cycle * 146097
  let yearOfCycle :=
    (dayOfCycle - dayOfCycle / 1460 + dayOfCycle / 36524 - dayOfCycle / 146096) / 365
  let dayOfYear := dayOfCycle - (365 * yearOfCycle + yearOfCycle / 4 - yearOfCycle / 100)
  let month := (5 * dayOfYear + 2) / 153
  let day := dayOfYear - (153 * month + 2) / 5 + 1
  let civilMonth := if month < 10 then month + 3 else month - 9
  ⟨yearOfCycle + cycle * 400 + (if civilMonth ≤ 2 then 1 else 0), civilMonth.toNat, day.toNat⟩

end Date

/-! ### Points of time -/

/-- A point of time: the seconds since 1970, and nanoseconds on top.  There are fewer than a billion
of them, unless the second is a late one. -/
structure Instant where
  seconds : Int
  nanos : Nat
deriving DecidableEq, Repr, Inhabited

namespace Instant

/-- Whether the first point of time comes before the second one. -/
def before (s t : Instant) : Bool :=
  s.seconds < t.seconds || (s.seconds = t.seconds && s.nanos < t.nanos)

theorem before_iff {s t : Instant} : s.before t = true ↔
    s.seconds < t.seconds ∨ s.seconds = t.seconds ∧ s.nanos < t.nanos := by
  simp [before]

theorem not_before_self (t : Instant) : t.before t = false := by
  simp [before]

theorem not_before_of_before {s t : Instant} (h : s.before t = true) : t.before s = false := by
  rw [← Bool.not_eq_true, before_iff]
  rw [before_iff] at h
  omega

/-- What comes before a point of time comes before every one that is not earlier. -/
theorem before_of_before_of_not_before {s t u : Instant} (h : s.before t = true)
    (h' : u.before t = false) : s.before u = true := by
  rw [← Bool.not_eq_true, before_iff] at h'
  rw [before_iff] at *
  omega

/-- The nanoseconds of a second. -/
def nanosPerSecond : Nat := 1000000000

/-- A number with at least `width` digits. -/
def padded (width n : Nat) : String :=
  let digits := Nat.toDigits 10 n
  String.ofList (List.replicate (width - digits.length) '0' ++ digits)

/-- A year has four digits; a year that needs more, or comes before the year 0, has a sign. -/
def yearText (year : Int) : String :=
  if 0 ≤ year && year ≤ 9999 then padded 4 year.toNat
  else (if year < 0 then "-" else "+") ++ padded 4 year.natAbs

/-- The fraction of a second, with three, six or nine digits or none. -/
def fractionText (nanos : Nat) : String :=
  if nanos = 0 then ""
  else if nanos % 1000000 = 0 then "." ++ padded 3 (nanos / 1000000)
  else if nanos % 1000 = 0 then "." ++ padded 6 (nanos / 1000)
  else "." ++ padded 9 nanos

/-- The text of a point of time. -/
def render (t : Instant) : String :=
  let date := Date.ofDayNumber (t.seconds / 86400)
  let second := (t.seconds % 86400).toNat
  let late := if t.nanos < nanosPerSecond then 0 else 1
  yearText date.year ++ "-" ++ padded 2 date.month ++ "-" ++ padded 2 date.day ++ "T" ++
    padded 2 (second / 3600) ++ ":" ++ padded 2 (second / 60 % 60) ++ ":" ++
    padded 2 (second % 60 + late) ++ fractionText (t.nanos % nanosPerSecond) ++ "Z"

end Instant
end CommandMenu
