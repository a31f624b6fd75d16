import CommandMenu.Proofs.Calendar
import CommandMenu.Proofs.Digits
import CommandMenu.Time.Reader

/-! # Points of time and their texts

The text of a point of time has all its numbers padded and in range, so that a generous reading
takes each of them apart at the mark behind it.

* `Instant.IsValid` are the points of time that can be told.
* `Instant.read?_render` says that the text of such a point of time denotes it. -/

namespace CommandMenu

/-! ### Blanks -/

namespace Text

theorem isBlank_of_isDigit {c : Char} (h : c.isDigit = true) : isBlank c = false := by
  simp only [Char.isDigit, Bool.and_eq_true, decide_eq_true_eq] at h
  have hlow : 48 ≤ c.toNat := h.1
  have hhigh : c.toNat ≤ 57 := h.2
  simp only [isBlank, Bool.or_eq_false_iff, Bool.and_eq_false_iff, decide_eq_false_iff_not,
    beq_eq_false_iff_ne]
  omega

theorem trimStart_cons {c : Char} (h : isBlank c = false) (cs : List Char) :
    trimStart (c :: cs) = c :: cs := by
  simp [trimStart, h]

end Text

namespace Instant

open Text (numberOf trimStart)

/-! ### Padded numbers -/

/-- Characters that are digits, one at least. -/
def AreDigits (cs : List Char) : Prop := cs ≠ [] ∧ ∀ c ∈ cs, c.isDigit = true

/-- A text does not go on with a digit. -/
def EndsNumber (cs : List Char) : Prop := ∀ c, cs.head? = some c → c.isDigit = false

theorem endsNumber_cons {c : Char} (h : c.isDigit = false) (cs : List Char) :
    EndsNumber (c :: cs) := by
  intro d hd
  simp only [List.head?_cons, Option.some.injEq] at hd
  exact hd ▸ h

theorem areDigits_padded (width n : Nat) : AreDigits (padded width n).toList := by
  simp only [padded, String.toList_ofList]
  refine ⟨by simp [Nat.toDigits_ne_nil], fun c hc => ?_⟩
  rcases List.mem_append.1 hc with hc | hc
  · rw [List.eq_of_mem_replicate hc]
    rfl
  · exact Nat.isDigit_of_mem_toDigits (by omega) (by omega) hc

theorem numberOf_padded (width n : Nat) : numberOf 10 (padded width n).toList = n := by
  simp only [padded, String.toList_ofList, Text.numberOf_zeros_append, Text.numberOf_toDigits]

theorem length_padded {width n : Nat} (hw : 0 < width) (h : n < 10 ^ width) :
    (padded width n).toList.length = width := by
  have hlength := (Nat.length_toDigits_le_iff (by omega : 1 < 10) hw).2 h
  simp only [padded, String.toList_ofList, List.length_append, List.length_replicate]
  omega

/-! ### Reading numbers -/

theorem AreDigits.trimStart_append {ds : List Char} (h : AreDigits ds) (rest : List Char) :
    trimStart (ds ++ rest) = ds ++ rest := by
  obtain ⟨hne, hall⟩ := h
  cases ds with
  | nil => exact absurd rfl hne
  | cons d ds => exact Text.trimStart_cons (Text.isBlank_of_isDigit (hall d (by simp))) _

theorem takeWhile_isDigit_of_endsNumber {cs : List Char} (h : EndsNumber cs) :
    cs.takeWhile Char.isDigit = [] := by
  cases cs with
  | nil => rfl
  | cons c cs => simp [h c rfl]

theorem readDigits_append (width : Nat) {ds : List Char} (rest : List Char) (h : AreDigits ds)
    (hw : ds.length = width ∨ ds.length ≤ width ∧ EndsNumber rest) :
    readDigits width (ds ++ rest) = some (numberOf 10 ds, rest) := by
  obtain ⟨hne, hall⟩ := h
  have htake : ((ds ++ rest).take width).takeWhile Char.isDigit = ds := by
    rw [List.take_append, List.take_of_length_le (by omega),
      List.takeWhile_append_of_pos hall]
    suffices hend : (rest.take (width - ds.length)).takeWhile Char.isDigit = [] by
      rw [hend, List.append_nil]
    rcases hw with hw | ⟨-, hend⟩
    · simp [hw]
    · refine takeWhile_isDigit_of_endsNumber fun c hc => hend c ?_
      rw [List.head?_take] at hc
      split at hc
      · simp at hc
      · exact hc
  simp [readDigits, htake, hne]

theorem readField_padded {n : Nat} (h : n < 100) (rest : List Char) :
    readField ((padded 2 n).toList ++ rest) = some (n, rest) := by
  have hd := areDigits_padded 2 n
  rw [readField, hd.trimStart_append,
    readDigits_append 2 rest hd (.inl (length_padded (by omega) h)), numberOf_padded]

theorem readMark_cons (mark : Char) (rest : List Char) (h : Text.isBlank mark = false) :
    readMark mark (mark :: rest) = some rest := by
  simp [readMark, Text.trimStart_cons h]

theorem AreDigits.append_ne_cons {ds : List Char} (h : AreDigits ds) {c : Char}
    (hc : c.isDigit = false) (rest cs : List Char) : ds ++ rest ≠ c :: cs := by
  obtain ⟨hne, hall⟩ := h
  cases ds with
  | nil => exact absurd rfl hne
  | cons d ds =>
    intro he
    have hd : d = c := (List.cons.inj he).1
    have hdigit := hall d (by simp)
    rw [hd, hc] at hdigit
    exact absurd hdigit (by decide)

/-- A year of four digits is read as such, every other one behind its sign. -/
theorem readYear_yearText (year : Int) {rest : List Char} (h : EndsNumber rest) :
    readYear ((yearText year).toList ++ rest) = some (year, rest) := by
  unfold yearText
  by_cases hfour : 0 ≤ year ∧ year ≤ 9999
  · have hd := areDigits_padded 4 year.toNat
    have hread := readDigits_append 4 rest hd
      (.inl (length_padded (by omega) (show year.toNat < 10 ^ 4 by omega)))
    have hyear : (year.toNat : Int) = year := by omega
    simp only [hfour, decide_true, Bool.and_self, if_true]
    rw [readYear, hd.trimStart_append]
    split
    · next heq => exact absurd heq (hd.append_ne_cons (by decide) _ _)
    · next heq => exact absurd heq (hd.append_ne_cons (by decide) _ _)
    · rw [hread, numberOf_padded]
      simp [hyear]
  · have hd := areDigits_padded 4 year.natAbs
    have hread := readDigits_append ((padded 4 year.natAbs).toList ++ rest).length rest hd
      (.inr ⟨by simp, h⟩)
    have hsign : (decide (0 ≤ year) && decide (year ≤ 9999)) = false := by
      simpa using hfour
    by_cases hneg : year < 0
    · have hyear : -(year.natAbs : Int) = year := by omega
      have htext : ("-" ++ padded 4 year.natAbs).toList ++ rest =
          '-' :: ((padded 4 year.natAbs).toList ++ rest) := by simp
      simp only [hsign, Bool.false_eq_true, if_false, if_pos hneg, htext]
      rw [readYear, Text.trimStart_cons (by decide)]
      simp only [hread, numberOf_padded, Option.map_some, hyear]
    · have hyear : (year.natAbs : Int) = year := by omega
      have htext : ("+" ++ padded 4 year.natAbs).toList ++ rest =
          '+' :: ((padded 4 year.natAbs).toList ++ rest) := by simp
      simp only [hsign, Bool.false_eq_true, if_false, if_neg hneg, htext]
      rw [readYear, Text.trimStart_cons (by decide)]
      simp only [hread, numberOf_padded, Option.map_some, hyear]

/-! ### Reading the parts of a point of time -/

/-- The text of a date. -/
def dateText (d : Date) : List Char :=
  (yearText d.year).toList ++ '-' :: ((padded 2 d.month).toList ++
    '-' :: (padded 2 d.day).toList)

theorem readDate_dateText {d : Date} (h : d.isValid = true) (rest : List Char) :
    readDate (dateText d ++ rest) = some (d, rest) := by
  have hbounds := h
  simp only [Date.isValid, Bool.and_eq_true, decide_eq_true_eq] at hbounds
  obtain ⟨⟨⟨-, hmonth⟩, -⟩, hday⟩ := hbounds
  have hdays : Date.daysOfMonth d.year d.month ≤ 31 := by
    unfold Date.daysOfMonth
    split
    · split <;> omega
    · split <;> omega
  have hyear := readYear_yearText d.year
    (endsNumber_cons (c := '-') rfl ((padded 2 d.month).toList ++
      '-' :: ((padded 2 d.day).toList ++ rest)))
  simp only [readDate, dateText, List.append_assoc, List.cons_append, hyear, Option.bind_eq_bind,
    Option.bind_some, readMark_cons '-' _ rfl, readField_padded (show d.month < 100 by omega),
    readField_padded (show d.day < 100 by omega), if_pos h]

/-- The number of digits is seen from what is left behind them. -/
theorem readFraction_padded {width n : Nat} (hw : 0 < width) (hw' : width ≤ 9)
    (h : n < 10 ^ width) {rest : List Char} (hend : EndsNumber rest) :
    readFraction ('.' :: ((padded width n).toList ++ rest)) =
      some (n * 10 ^ (9 - width), rest) := by
  have hlength := length_padded hw h
  have hread := readDigits_append 9 rest (areDigits_padded width n)
    (.inr ⟨by omega, hend⟩)
  have hgiven : ((padded width n).toList ++ rest).length - rest.length = width := by
    rw [List.length_append, hlength]
    omega
  have hdrop : rest.dropWhile Char.isDigit = rest := by
    cases rest with
    | nil => rfl
    | cons c rest => simp [hend c rfl]
  simp only [readFraction, hread, numberOf_padded, Option.bind_eq_bind, Option.bind_some, hgiven,
    hdrop]
  rfl

/-- A fraction is written with as many digits as it needs, in threes. -/
theorem readFraction_fractionText {nanos : Nat} (h : nanos < nanosPerSecond) (rest : List Char) :
    readFraction ((fractionText nanos).toList ++ 'Z' :: rest) = some (nanos, 'Z' :: rest) := by
  have hend : EndsNumber ('Z' :: rest) := endsNumber_cons rfl rest
  have htext (s : String) :
      ("." ++ s).toList ++ 'Z' :: rest = '.' :: (s.toList ++ 'Z' :: rest) := by simp
  unfold nanosPerSecond at h
  unfold fractionText
  by_cases hnone : nanos = 0
  · rw [if_pos hnone, hnone]
    rfl
  · rw [if_neg hnone]
    by_cases hthree : nanos % 1000000 = 0
    · have hback : nanos / 1000000 * 10 ^ (9 - 3) = nanos := by omega
      rw [if_pos hthree, htext,
        readFraction_padded (by omega) (by omega) (by omega : nanos / 1000000 < 10 ^ 3) hend, hback]
    · rw [if_neg hthree]
      by_cases hsix : nanos % 1000 = 0
      · have hback : nanos / 1000 * 10 ^ (9 - 6) = nanos := by omega
        rw [if_pos hsix, htext,
          readFraction_padded (by omega) (by omega) (by omega : nanos / 1000 < 10 ^ 6) hend, hback]
      · have hback : nanos * 10 ^ (9 - 9) = nanos := by omega
        rw [if_neg hsix, htext,
          readFraction_padded (by omega) (by omega) (by omega : nanos < 10 ^ 9) hend, hback]

/-- The text of a time of day with the fraction of a second. -/
def timeText (hour minute second nanos : Nat) : List Char :=
  (padded 2 hour).toList ++ ':' :: ((padded 2 minute).toList ++ ':' :: ((padded 2 second).toList ++
    (fractionText nanos).toList))

/-- The second 60 is taken for the one in front of it, with a second on top. -/
theorem readTime_timeText {hour minute second nanos : Nat} (hhour : hour < 24)
    (hminute : minute < 60) (hsecond : second ≤ 60) (hnanos : nanos < nanosPerSecond)
    (rest : List Char) :
    readTime (timeText hour minute second nanos ++ 'Z' :: rest) =
      some ((hour * 3600 + minute * 60 + second - (if second = 60 then 1 else 0),
        nanos + (if second = 60 then 1 else 0) * nanosPerSecond), 'Z' :: rest) := by
  simp only [readTime, timeText, List.append_assoc, List.cons_append, Option.bind_eq_bind,
    Option.bind_some, readMark_cons ':' _ rfl, readField_padded (show hour < 100 by omega),
    readField_padded (show minute < 100 by omega), readField_padded (show second < 100 by omega),
    readFraction_fractionText hnanos, hhour, hminute, hsecond, decide_true, Bool.and_self, if_true]
  rfl

/-! ### Reading a point of time -/

/-- The points of time that can be told: the day is one of the calendar, and only the last second of
a minute may be a late one. -/
structure IsValid (t : Instant) : Prop where
  first : Date.firstYear ≤ (Date.ofDayNumber (t.seconds / 86400)).year
  last : (Date.ofDayNumber (t.seconds / 86400)).year ≤ Date.lastYear
  nanos : t.nanos < 2 * nanosPerSecond
  late : nanosPerSecond ≤ t.nanos → t.seconds % 60 = 59

/-- The text of the time of day at a point of time. -/
def clockText (t : Instant) : List Char :=
  timeText ((t.seconds % 86400).toNat / 3600) ((t.seconds % 86400).toNat / 60 % 60)
    ((t.seconds % 86400).toNat % 60 + (if t.nanos < nanosPerSecond then 0 else 1))
    (t.nanos % nanosPerSecond)

theorem toList_render (t : Instant) : t.render.toList =
    dateText (Date.ofDayNumber (t.seconds / 86400)) ++ 'T' :: (t.clockText ++ ['Z']) := by
  simp [render, dateText, clockText, timeText]

theorem IsValid.readTime {t : Instant} (h : t.IsValid) (rest : List Char) :
    readTime (t.clockText ++ 'Z' :: rest) =
      some (((t.seconds % 86400).toNat, t.nanos), 'Z' :: rest) := by
  obtain ⟨-, -, hnanos, hlate⟩ := h
  have hfraction : t.nanos % nanosPerSecond < nanosPerSecond := Nat.mod_lt _ (by decide)
  unfold clockText
  unfold nanosPerSecond at *
  -- A late second is written as the second 60, and only that number is read as one.
  by_cases hsurplus : t.nanos < 1000000000
  · have hsecond : (t.seconds % 86400).toNat % 60 + 0 ≠ 60 := by omega
    rw [if_pos hsurplus, readTime_timeText (by omega) (by omega) (by omega) hfraction,
      if_neg hsecond]
    have hday : (t.seconds % 86400).toNat / 3600 * 3600 + (t.seconds % 86400).toNat / 60 % 60 * 60 +
        ((t.seconds % 86400).toNat % 60 + 0) - 0 = (t.seconds % 86400).toNat := by omega
    have hback : t.nanos % 1000000000 + 0 * nanosPerSecond = t.nanos := by omega
    rw [hday, hback]
  · have hsecond : (t.seconds % 86400).toNat % 60 + 1 = 60 := by omega
    rw [if_neg hsurplus, readTime_timeText (by omega) (by omega) (by omega) hfraction,
      if_pos hsecond]
    have hday : (t.seconds % 86400).toNat / 3600 * 3600 + (t.seconds % 86400).toNat / 60 % 60 * 60 +
        ((t.seconds % 86400).toNat % 60 + 1) - 1 = (t.seconds % 86400).toNat := by omega
    have hback : t.nanos % 1000000000 + 1 * nanosPerSecond = t.nanos := by
      unfold nanosPerSecond
      omega
    rw [hday, hback]

/-- **The text of a point of time denotes it**, also at a late second. -/
theorem read?_render {t : Instant} (h : t.IsValid) : read? t.render = some t := by
  have hdate := Date.isValid_ofDayNumber h.first h.last
  have hgap (cs : List Char) : readGap ('T' :: cs) = some cs := rfl
  have hoffset : readOffset ['Z'] = some (0, []) := by decide
  have hend : (trimStart []).isEmpty = true := rfl
  have hseconds :
      t.seconds / 86400 * 86400 + ((t.seconds % 86400).toNat : Int) - 0 = t.seconds := by omega
  simp only [read?, toList_render, readDate_dateText hdate, hgap, h.readTime, hoffset,
    Option.bind_eq_bind, Option.bind_some, Date.dayNumber_ofDayNumber, hseconds, hend, h.first,
    h.last, decide_true]
  rfl

end Instant
end CommandMenu
