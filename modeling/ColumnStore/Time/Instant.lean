import ColumnStore.Time.Date

/-!
# Instants

Points in time, as seconds since the first moment of 1970 and the nanoseconds
after the last full second. Before 1970 the seconds are negative and the
nanoseconds still count upwards. Nanoseconds of a whole second and more are
those of a leap second, which repeats the second before it. The seconds are those of the
calendar.

## Main definitions

* `Instant`: A point in time.
* `Instant.date`: The day in which it lies.
* `Instant.ofDate`: The first moment of a day.
* `Instant.text`: Seconds with a number of decimal places.
-/

namespace ColumnStore

namespace Instant

/-- The first second that the calendar has. -/
def firstSecond : Int := -8334601228800

/-- The last second that the calendar has. -/
def lastSecond : Int := 8210266876799

end Instant

/-- A point in time. -/
structure Instant where
  /-- Full seconds since the first moment of 1970. -/
  seconds : Int
  /-- Nanoseconds after the last full second. -/
  nanos : Nat
  /-- The calendar has this second. -/
  seconds_mem : Instant.firstSecond ≤ seconds ∧ seconds ≤ Instant.lastSecond
  /-- There are less than two seconds' worth, to make room for leap seconds. -/
  nanos_lt : nanos < 2000000000
  deriving DecidableEq

namespace Instant

/-- The instant of seconds and nanoseconds, if the calendar has the second and there
    are not too many nanoseconds. -/
def make? (seconds : Int) (nanos : Nat) : Option Instant :=
  if h : (firstSecond ≤ seconds ∧ seconds ≤ lastSecond) ∧ nanos < 2000000000 then
    some ⟨seconds, nanos, h.1, h.2⟩
  else none

/-- The first moment of 1970. -/
def epoch : Instant := ⟨0, 0, by decide, by decide⟩

/-- The first moment of a day. -/
def ofDate (d : Date) : Instant :=
  ⟨86400 * d.dayNumber, 0, by
    have h := d.dayNumber_mem
    simp only [Date.firstDay, Date.lastDay] at h
    simp only [firstSecond, lastSecond]
    omega, by decide⟩

/-- The day in which an instant lies. -/
def date (t : Instant) : Date :=
  (Date.ofDayNumber? (t.seconds / 86400)).getD Date.epoch

/-- Seconds with `places` decimal places, nine at most. The seconds have at
    least ten digits after their sign, and the places are cut, not rounded. -/
def fixed (t : Instant) (places : Nat) : List Char :=
  let sign := if t.seconds < 0 then ['-'] else []
  let whole := sign ++ Number.padded 10 t.seconds.natAbs
  if places = 0 then whole
  else whole ++ '.' :: (Number.padded 9 t.nanos).take (min places 9)

/-- Seconds with six decimal places, or with none if the instant is a full
    second. -/
def text (t : Instant) : List Char :=
  t.fixed (if t.nanos = 0 then 0 else 6)

end Instant

end ColumnStore
