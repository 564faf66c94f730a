import ColumnStore.Number.Whole

/-!
# Dates

Days of the proleptic Gregorian calendar, in which the rule of leap years holds
for all years, those before year one included.

A date is a year, a month and a day of the month. Days are also counted, with
the first day of 1970 as day zero. The calendar has a first and a last year;
counting beyond them leaves the calendar.

## Main definitions

* `Date`: A day of the calendar.
* `Date.dayNumber`: Its number, counted from 1970.
* `Date.ofDayNumber?`: The day of a number.
* `Date.before`: The order of days.
* `Date.text`: The written form.

## Theorems

* `dayNumber_mem`: The numbers of days lie between those of the first and the last
  day of the calendar.
-/

namespace ColumnStore

namespace Date

/-- Whether a year has a leap day. -/
def isLeap (year : Int) : Bool :=
  year % 4 = 0 && (year % 100 ≠ 0 || year % 400 = 0)

/-- The number of days of a month. -/
def daysIn (year : Int) (month : Nat) : Nat :=
  if month = 2 then (if isLeap year then 29 else 28)
  else if month = 4 || month = 6 || month = 9 || month = 11 then 30
  else 31

/-- The first year of the calendar. -/
def firstYear : Int := -262143

/-- The last year of the calendar. -/
def lastYear : Int := 262142

/-- Whether a year, a month and a day are those of a day of the calendar. -/
def Valid (year : Int) (month day : Nat) : Prop :=
  (firstYear ≤ year ∧ year ≤ lastYear) ∧ (1 ≤ month ∧ month ≤ 12)
    ∧ (1 ≤ day ∧ day ≤ daysIn year month)

instance (year : Int) (month day : Nat) : Decidable (Valid year month day) :=
  inferInstanceAs (Decidable (_ ∧ _ ∧ _))

end Date

/-- A day of the calendar. -/
structure Date where
  /-- The year; years before year one are zero and below. -/
  year : Int
  /-- The month, from one. -/
  month : Nat
  /-- The day of the month, from one. -/
  day : Nat
  /-- The calendar has this day. -/
  valid : Date.Valid year month day
  deriving DecidableEq

namespace Date

/-- The day of a year, a month and a day, if the calendar has it. -/
def make? (year : Int) (month day : Nat) : Option Date :=
  if h : Valid year month day then some ⟨year, month, day, h⟩ else none

/-- The first day of 1970. -/
def epoch : Date := ⟨1970, 1, 1, by decide⟩

/-- The number of the first day of a year. -/
def yearStart (year : Int) : Int :=
  let y := year - 1
  365 * y + y / 4 - y / 100 + y / 400 - 719162

/-- The days of a year before a month. -/
def daysBefore (year : Int) (month : Nat) : Nat :=
  ((List.range month).drop 1).foldl (fun n m => n + daysIn year m) 0

/-- The number of a day, counted from the first day of 1970. -/
def dayNumber (d : Date) : Int :=
  yearStart d.year + daysBefore d.year d.month + d.day - 1

/-- The year of a day number. The mean length of a year gives a guess that is
    off by one year at most. -/
def yearOf (n : Int) : Int :=
  let guess := (400 * (n + 719162)) / 146097 + 1
  if n < yearStart guess then guess - 1
  else if yearStart (guess + 1) ≤ n then guess + 1
  else guess

/-- A year is followed by the next after 365 days, or after one more if it has a
    leap day. -/
theorem yearStart_succ (year : Int) :
    yearStart (year + 1) = yearStart year + (if isLeap year then 366 else 365) := by
  have hleap : isLeap year = true ↔ year % 4 = 0 ∧ (year % 100 ≠ 0 ∨ year % 400 = 0) := by
    simp [isLeap]
  simp only [yearStart]
  by_cases h : isLeap year = true
  · rw [if_pos h]
    rw [hleap] at h
    omega
  · rw [if_neg h]
    rw [hleap] at h
    omega

/-- The days of a month lie in its year. -/
theorem daysBefore_add_daysIn_le (year : Int) {month : Nat} (h : 1 ≤ month ∧ month ≤ 12) :
    daysBefore year month + daysIn year month ≤ if isLeap year then 366 else 365 := by
  have hmonth : month = 1 ∨ month = 2 ∨ month = 3 ∨ month = 4 ∨ month = 5 ∨ month = 6 ∨
      month = 7 ∨ month = 8 ∨ month = 9 ∨ month = 10 ∨ month = 11 ∨ month = 12 := by omega
  cases hleap : isLeap year <;>
    rcases hmonth with rfl | rfl | rfl | rfl | rfl | rfl | rfl | rfl | rfl | rfl | rfl | rfl <;>
    simp [daysBefore, daysIn, hleap, List.range, List.range.loop]

/-- The number of the first day of the calendar. -/
def firstDay : Int := -96465292

/-- The number of the last day of the calendar. -/
def lastDay : Int := 95026236

/-- The numbers of days are those of the calendar. -/
theorem dayNumber_mem (d : Date) : firstDay ≤ d.dayNumber ∧ d.dayNumber ≤ lastDay := by
  obtain ⟨year, month, day, ⟨hfirst, hlast⟩, hmonth, hday⟩ := d
  have hin := daysBefore_add_daysIn_le year hmonth
  have hnext := yearStart_succ year
  have hlow : yearStart firstYear ≤ yearStart year := by
    simp only [yearStart, firstYear] at *
    omega
  have hhigh : yearStart (year + 1) ≤ yearStart (lastYear + 1) := by
    simp only [yearStart, lastYear] at *
    omega
  have hends : yearStart firstYear = firstDay ∧ yearStart (lastYear + 1) = lastDay + 1 := by decide
  -- A day lies between the starts of its year and of the next one.
  simp only [dayNumber]
  by_cases hleap : isLeap year = true
  · rw [if_pos hleap] at hin hnext
    omega
  · rw [if_neg hleap] at hin hnext
    omega

/-- The month and the day of the month after `n` days of a year, going through
    the months from `month` on. At most `months` more months follow it. -/
def monthAndDay (year : Int) (month n : Nat) : Nat → Nat × Nat
  | 0 => (month, n + 1)
  | months + 1 =>
    if n < daysIn year month then (month, n + 1)
    else monthAndDay year (month + 1) (n - daysIn year month) months

/-- The day of a day number, if the calendar has it. -/
def ofDayNumber? (n : Int) : Option Date :=
  let year := yearOf n
  let (month, day) := monthAndDay year 1 (n - yearStart year).toNat 11
  make? year month day

/-- Whether a day is earlier than another. -/
def before (a b : Date) : Bool :=
  a.year < b.year
    || a.year = b.year && (a.month < b.month || a.month = b.month && a.day < b.day)

/-- A year of four digits, or a sign and at least four digits. -/
def yearText (year : Int) : List Char :=
  if 0 ≤ year && year ≤ 9999 then Number.padded 4 year.natAbs
  else (if year < 0 then '-' else '+') :: Number.padded 4 year.natAbs

/-- The written form: year, month and day with hyphens between them. -/
def text (d : Date) : List Char :=
  yearText d.year ++ '-' :: Number.padded 2 d.month ++ '-' :: Number.padded 2 d.day

end Date

end ColumnStore
