import CommandMenu.Time.Instant
import Mathlib.Tactic.IntervalCases

/-! # Days and their numbers

The calendar repeats after 400 years.  In such a cycle the years are counted from March; it falls
into four centuries, a century into stretches of four years, and only the last of these years, and
the last century, have a day more than the others.

* `Date.exists_parts` says where the day with a number stands in its cycle.
* `Date.dayNumber_ofDayNumber` and `Date.isValid_ofDayNumber` say that the day with a number has
  that number, and is one of the calendar. -/

namespace CommandMenu.Date

/-! ### The year of a day -/

/-- Where a day stands in a cycle: the century, the stretch of four years, the year in it, and the
day of that year. -/
structure Parts where
  century : Int
  stretch : Int
  year : Int
  day : Int

namespace Parts

/-- There are four centuries, twenty-five stretches, four years and at most 366 days.  The last day
is there in the last year of a stretch only; and not in the last stretch, unless the century is the
last one too. -/
structure Valid (p : Parts) : Prop where
  century : 0 ≤ p.century ∧ p.century ≤ 3
  stretch : 0 ≤ p.stretch ∧ p.stretch ≤ 24
  year : 0 ≤ p.year ∧ p.year ≤ 3
  day : 0 ≤ p.day ∧ p.day ≤ 365
  last : p.day = 365 → p.year = 3 ∧ (p.stretch ≤ 23 ∨ p.century = 3)

/-- The year in the cycle. -/
def yearOfCycle (p : Parts) : Int := 100 * p.century + 4 * p.stretch + p.year

/-- The day in the cycle. -/
def dayOfCycle (p : Parts) : Int :=
  36524 * p.century + 1461 * p.stretch + 365 * p.year + p.day

variable {p : Parts}

theorem Valid.yearOfCycle_bounds (h : p.Valid) : 0 ≤ p.yearOfCycle ∧ p.yearOfCycle < 400 := by
  obtain ⟨hc, hs, hy, -, -⟩ := h
  unfold yearOfCycle
  omega

theorem Valid.dayOfCycle_eq (h : p.Valid) :
    p.dayOfCycle = 365 * p.yearOfCycle + p.yearOfCycle / 4 - p.yearOfCycle / 100 + p.day := by
  obtain ⟨hc, hs, hy, -, -⟩ := h
  have h4 : p.yearOfCycle / 4 = 25 * p.century + p.stretch := by
    unfold yearOfCycle
    omega
  have h100 : p.yearOfCycle / 100 = p.century := by
    unfold yearOfCycle
    omega
  rw [h4, h100]
  unfold dayOfCycle yearOfCycle
  omega

theorem Valid.isLeapYear (h : p.Valid) (hd : p.day = 365) (cycle : Int) :
    Date.isLeapYear (p.yearOfCycle + cycle * 400 + 1) = true := by
  obtain ⟨hc, hs, hy, -, hl⟩ := h
  obtain ⟨h3, hl⟩ := hl hd
  -- a year from March ends in the February of the year that follows it in the count from January
  have h4 : (p.yearOfCycle + cycle * 400 + 1) % 4 = 0 := by
    unfold yearOfCycle
    omega
  have h100 : (p.yearOfCycle + cycle * 400 + 1) % 100 ≠ 0 ∨
      (p.yearOfCycle + cycle * 400 + 1) % 400 = 0 := by
    unfold yearOfCycle
    omega
  unfold Date.isLeapYear
  rw [decide_eq_true h4]
  simpa using h100

theorem Valid.century_eq (h : p.Valid) :
    p.dayOfCycle / 36524 - p.dayOfCycle / 146096 = p.century := by
  obtain ⟨hc, hs, hy, hd, hl⟩ := h
  -- the last day of the cycle does not start a fifth century
  by_cases hlast : p.dayOfCycle = 146096
  · rw [hlast]
    unfold dayOfCycle at hlast
    omega
  · have hlt : p.dayOfCycle < 36524 * p.century + 36524 ∧ p.dayOfCycle < 146096 := by
      unfold dayOfCycle at hlast ⊢
      omega
    have hle : 36524 * p.century ≤ p.dayOfCycle := by
      unfold dayOfCycle
      omega
    generalize p.dayOfCycle = d at hlt hle
    have h36524 : d / 36524 = p.century := by omega
    have h146096 : d / 146096 = 0 := by omega
    omega

/-- **The year is told from the day.**  A stretch is taken to be a day too short, so that a day may
be counted into a stretch too late; then it is in the last year of its own stretch, and the day that
is taken off for it leaves it there. -/
theorem Valid.yearOfCycle_eq (h : p.Valid) :
    (p.dayOfCycle - p.dayOfCycle / 1460 + p.dayOfCycle / 36524 - p.dayOfCycle / 146096) / 365 =
      p.yearOfCycle := by
  have hcentury := h.century_eq
  obtain ⟨hc, hs, hy, hd, hl⟩ := h
  have hsplit : p.dayOfCycle = 1460 * (25 * p.century + p.stretch) +
      (24 * p.century + p.stretch + 365 * p.year + p.day) := by
    unfold dayOfCycle
    omega
  by_cases hlate : 24 * p.century + p.stretch + 365 * p.year + p.day < 1460
  · have h1460 : p.dayOfCycle / 1460 = 25 * p.century + p.stretch := by omega
    have hyear : p.dayOfCycle - p.dayOfCycle / 1460 + p.dayOfCycle / 36524 -
        p.dayOfCycle / 146096 = 365 * p.yearOfCycle + p.day := by
      unfold yearOfCycle
      omega
    rw [hyear]
    omega
  · have h1460 : p.dayOfCycle / 1460 = 25 * p.century + p.stretch + 1 := by omega
    have hyear : p.dayOfCycle - p.dayOfCycle / 1460 + p.dayOfCycle / 36524 -
        p.dayOfCycle / 146096 = 365 * p.yearOfCycle + (p.day - 1) := by
      unfold yearOfCycle
      omega
    rw [hyear]
    omega

theorem exists_valid {d : Int} (h0 : 0 ≤ d) (h1 : d < 146097) :
    ∃ p : Parts, p.Valid ∧ p.dayOfCycle = d := by
  -- At each level the last day would start one part more; it belongs to the last part instead.
  obtain ⟨c, r, hc, hr, hd⟩ : ∃ c r : Int, (0 ≤ c ∧ c ≤ 3) ∧
      (0 ≤ r ∧ (r ≤ 36523 ∨ r = 36524 ∧ c = 3)) ∧ d = 36524 * c + r := by
    by_cases hlast : d = 146096
    · exact ⟨3, 36524, by omega, by omega, by omega⟩
    · exact ⟨d / 36524, d % 36524, by omega, by omega, by omega⟩
  obtain ⟨q, t, hq, ht, hr'⟩ : ∃ q t : Int, (0 ≤ q ∧ q ≤ 24) ∧ (0 ≤ t ∧ t ≤ 1460) ∧
      r = 1461 * q + t := ⟨r / 1461, r % 1461, by omega, by omega, by omega⟩
  obtain ⟨u, s, hu, hs, ht'⟩ : ∃ u s : Int, (0 ≤ u ∧ u ≤ 3) ∧
      (0 ≤ s ∧ (s ≤ 364 ∨ s = 365 ∧ u = 3)) ∧ t = 365 * u + s := by
    by_cases hlast : t = 1460
    · exact ⟨3, 365, by omega, by omega, by omega⟩
    · exact ⟨t / 365, t % 365, by omega, by omega, by omega⟩
  have hs' : 0 ≤ s ∧ s ≤ 365 := by omega
  refine ⟨⟨c, q, u, s⟩, ⟨hc, hq, hu, hs', fun hday => ?_⟩, ?_⟩
  · have hday : s = 365 := hday
    show u = 3 ∧ (q ≤ 23 ∨ c = 3)
    omega
  · show 36524 * c + 1461 * q + 365 * u + s = d
    omega

end Parts

/-! ### The month and the day of a month -/

/-- The months in front of a day of a year that starts in March. -/
def monthsBefore (day : Int) : Int := (5 * day + 2) / 153

/-- The number of a day in its month. -/
def dayOfMonth (day : Int) : Int := day - (153 * monthsBefore day + 2) / 5 + 1

/-- The number of the month in a year that starts in January. -/
def monthOf (day : Int) : Int :=
  if monthsBefore day < 10 then monthsBefore day + 3 else monthsBefore day - 9

/-- The day of some year of a cycle. -/
def ofParts (cycle : Int) (p : Parts) : Date :=
  ⟨p.yearOfCycle + cycle * 400 + (if monthOf p.day ≤ 2 then 1 else 0), (monthOf p.day).toNat,
    (dayOfMonth p.day).toNat⟩

/-- **The day with a number has its place in some cycle.** -/
theorem exists_parts (n : Int) : ∃ cycle p, Parts.Valid p ∧
    n + epoch = cycle * 146097 + p.dayOfCycle ∧ ofDayNumber n = ofParts cycle p := by
  have h0 : 0 ≤ n + epoch - (n + epoch) / 146097 * 146097 := by omega
  have h1 : n + epoch - (n + epoch) / 146097 * 146097 < 146097 := by omega
  obtain ⟨p, hp, hd⟩ := Parts.exists_valid h0 h1
  have hday : p.dayOfCycle - (365 * p.yearOfCycle + p.yearOfCycle / 4 - p.yearOfCycle / 100) =
      p.day := by
    rw [hp.dayOfCycle_eq]
    omega
  refine ⟨(n + epoch) / 146097, p, hp, by omega, ?_⟩
  unfold ofDayNumber
  simp only [← hd, hp.yearOfCycle_eq, hday]
  rfl

theorem monthsBefore_bounds {day : Int} (h : 0 ≤ day ∧ day ≤ 365) :
    0 ≤ monthsBefore day ∧ monthsBefore day ≤ 11 := by
  unfold monthsBefore
  omega

theorem dayOfMonth_pos (day : Int) : 1 ≤ dayOfMonth day := by
  unfold dayOfMonth monthsBefore
  omega

theorem days_before_add_dayOfMonth (day : Int) :
    (153 * monthsBefore day + 2) / 5 + dayOfMonth day - 1 = day := by
  unfold dayOfMonth
  omega

theorem monthOf_bounds {day : Int} (h : 0 ≤ day ∧ day ≤ 365) :
    1 ≤ monthOf day ∧ monthOf day ≤ 12 := by
  have hmonth := monthsBefore_bounds h
  unfold monthOf
  split <;> omega

/-! ### Counting days there and back -/

theorem dayNumber_ofParts {p : Parts} (h : p.Valid) (cycle : Int) :
    (ofParts cycle p).dayNumber = cycle * 146097 + p.dayOfCycle - epoch := by
  have hyear := h.yearOfCycle_bounds
  have hmonth := monthsBefore_bounds h.day
  have hday := dayOfMonth_pos p.day
  have hback := days_before_add_dayOfMonth p.day
  have hcycle : (p.yearOfCycle + cycle * 400) / 400 = cycle := by omega
  have hrest : p.yearOfCycle + cycle * 400 - cycle * 400 = p.yearOfCycle := by omega
  rw [h.dayOfCycle_eq]
  unfold dayNumber ofParts monthOf
  -- January and February are counted as months of the year before.
  by_cases hm : monthsBefore p.day < 10
  · have hcount : ((monthsBefore p.day + 3).toNat : Int) - 3 = monthsBefore p.day := by omega
    have hlate : ¬ monthsBefore p.day + 3 ≤ 2 := by omega
    have hlate' : ¬ (monthsBefore p.day + 3).toNat ≤ 2 := by omega
    simp only [if_pos hm, if_neg hlate, if_neg hlate', Int.add_zero, hcount, hcycle, hrest]
    omega
  · have hcount : ((monthsBefore p.day - 9).toNat : Int) + 9 = monthsBefore p.day := by omega
    have hearly : monthsBefore p.day - 9 ≤ 2 := by omega
    have hearly' : (monthsBefore p.day - 9).toNat ≤ 2 := by omega
    simp only [if_neg hm, if_pos hearly, if_pos hearly', Int.add_sub_cancel, hcount, hcycle, hrest]
    omega

/-- **The day with a number has that number.** -/
theorem dayNumber_ofDayNumber (n : Int) : (ofDayNumber n).dayNumber = n := by
  obtain ⟨cycle, p, hp, hn, hdate⟩ := exists_parts n
  rw [hdate, dayNumber_ofParts hp]
  omega

theorem dayOfMonth_le (day : Int) :
    dayOfMonth day ≤ (153 * (monthsBefore day + 1) + 2) / 5 - (153 * monthsBefore day + 2) / 5 := by
  unfold dayOfMonth monthsBefore
  omega

theorem daysOfMonth_eq (year : Int) {m : Int} (h : 0 ≤ m ∧ m ≤ 10) :
    (daysOfMonth year (if m < 10 then m + 3 else m - 9).toNat : Int) =
      (153 * (m + 1) + 2) / 5 - (153 * m + 2) / 5 := by
  obtain ⟨h0, h1⟩ := h
  interval_cases m <;> rfl

theorem dayOfMonth_le_daysOfMonth {p : Parts} (h : p.Valid) (cycle : Int) :
    (ofParts cycle p).day ≤ daysOfMonth (ofParts cycle p).year (ofParts cycle p).month := by
  have hmonth := monthsBefore_bounds h.day
  have hday := dayOfMonth_le p.day
  have hback := days_before_add_dayOfMonth p.day
  -- only February is cut short: it ends with the year, a day later in a longer one
  by_cases hfebruary : monthsBefore p.day = 11
  · have hmonthOf : monthOf p.day = 2 := by
      unfold monthOf
      omega
    rw [hfebruary] at hback
    by_cases hlast : p.day = 365
    · have hleap := h.isLeapYear hlast cycle
      simp only [ofParts, hmonthOf, daysOfMonth, if_pos, Int.reduceToNat, Int.reduceLE, hleap]
      omega
    · have hle := h.day.2
      simp only [ofParts, hmonthOf, daysOfMonth, if_pos, Int.reduceToNat, Int.reduceLE]
      split <;> omega
  · have hlength := daysOfMonth_eq (ofParts cycle p).year
      (m := monthsBefore p.day) ⟨hmonth.1, by omega⟩
    show (dayOfMonth p.day).toNat ≤ daysOfMonth _ (monthOf p.day).toNat
    unfold monthOf
    omega

/-- **The day with a number is one of the calendar**, if its year can be told. -/
theorem isValid_ofDayNumber {n : Int} (h : firstYear ≤ (ofDayNumber n).year)
    (h' : (ofDayNumber n).year ≤ lastYear) : (ofDayNumber n).isValid = true := by
  obtain ⟨cycle, p, hp, -, hdate⟩ := exists_parts n
  have hmonth := monthOf_bounds hp.day
  have hday := dayOfMonth_pos p.day
  have hlast := dayOfMonth_le_daysOfMonth hp cycle
  rw [hdate] at h h' ⊢
  have hm : 1 ≤ (ofParts cycle p).month ∧ (ofParts cycle p).month ≤ 12 := by
    simp only [ofParts]
    omega
  have hd : 1 ≤ (ofParts cycle p).day := by
    simp only [ofParts]
    omega
  simp only [isValid, Bool.and_eq_true, decide_eq_true_eq]
  exact ⟨⟨⟨⟨⟨h, h'⟩, hm.1⟩, hm.2⟩, hd⟩, hlast⟩

end CommandMenu.Date
