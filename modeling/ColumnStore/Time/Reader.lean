import ColumnStore.Time.Instant
import ColumnStore.Text.Reader

/-!
# Reading Dates and Instants

The texts that dates and instants are read from.

A date is written as year, month and day, or as a number of days. An instant is
written as a number of seconds, as a date and a time of day with an offset from
universal time, as a date and a time without one, or as a date alone; the first
of these forms that fits is taken. A text that starts with a date of zeros
stands for the start of 1970.

White space is allowed before every number of a date or a time of day, except
in the form with an offset, where every number has a fixed width.

## Main definitions

* `Date.read?`: The text of a date.
* `Instant.read?`: The text of an instant.
-/

namespace ColumnStore

namespace Time

open Text (Reader)

/-- A run of `lo` to `hi` digits, as many as there are. -/
def number (lo hi : Nat) : Reader Nat := fun s =>
  let ds := (s.take hi).takeWhile Char.isDigit
  if lo ≤ ds.length then some (Number.ofDigits ds, s.drop ds.length) else none

/-- A number of one or two digits after white space. -/
def field : Reader Nat := fun s =>
  number 1 2 (Text.trimLeft s)

/-- A year after white space: up to four digits, or a sign and any number of
    them. -/
def year : Reader Int := fun s =>
  let signed (sign : Int) (s : List Char) : Option (Int × List Char) :=
    (number 1 s.length s).map fun (n, r) => (sign * n, r)
  match Text.trimLeft s with
  | '-' :: s => signed (-1) s
  | '+' :: s => signed 1 s
  | s => (number 1 4 s).map fun (n, r) => ((n : Int), r)

/-- A date with hyphens. -/
def date : Reader Date := fun s => do
  let (y, r) ← year s
  let (_, r) ← Reader.char '-' r
  let (m, r) ← field r
  let (_, r) ← Reader.char '-' r
  let (d, r) ← field r
  pure (← Date.make? y m d, r)

/-- The decimal places of a second, if a point starts them: nanoseconds from
    the first nine digits, with further digits skipped. -/
def fraction : Reader Nat := fun s =>
  match s with
  | '.' :: r =>
    match r.takeWhile Char.isDigit with
    | [] => none
    | ds =>
      let nine := ds.take 9
      some (Number.ofDigits nine * Nat.pow 10 (9 - nine.length), r.dropWhile Char.isDigit)
  | r => some (0, r)

/-- The instant of a date and a time of day. The sixty-first second of a minute
    is the leap second after the sixtieth. -/
def instant? (d : Date) (hour minute second nanos : Nat) : Option Instant :=
  if hour < 24 && minute < 60 && second ≤ 60 then
    -- The leap second is held as nanoseconds beyond those of a second.
    let (second, nanos) := if second = 60 then (59, nanos + 1000000000) else (second, nanos)
    Instant.make? (86400 * d.dayNumber + 3600 * hour + 60 * minute + second) nanos
  else none

/-- A time of day with colons and optional decimal places, on a date. -/
def timeOfDay (d : Date) (number : Reader Nat) : Reader Instant := fun s => do
  let (h, r) ← number s
  let (_, r) ← Reader.char ':' r
  let (m, r) ← number r
  let (_, r) ← Reader.char ':' r
  let (sec, r) ← number r
  let (nanos, r) ← fraction r
  pure (← instant? d h m sec nanos, r)

/-- An offset from universal time, in seconds. -/
def offset : Reader Int := fun s =>
  let signed (sign : Int) (s : List Char) : Option (Int × List Char) := do
    let (h, r) ← number 2 2 s
    let (_, r) ← Reader.char ':' r
    let (m, r) ← number 2 2 r
    if h < 24 && m < 60 then pure (sign * (3600 * h + 60 * m : Nat), r) else none
  match s with
  | 'Z' :: r => some (0, r)
  | 'z' :: r => some (0, r)
  | '+' :: r => signed 1 r
  | '-' :: r => signed (-1) r
  -- The minus sign of typography.
  | '\u2212' :: r => signed (-1) r
  | _ => none

/-- A date and a time of day with an offset, every number in its full width. -/
def withOffset : Reader Instant := fun s => do
  let (y, r) ← number 4 4 s
  let (_, r) ← Reader.char '-' r
  let (m, r) ← number 2 2 r
  let (_, r) ← Reader.char '-' r
  let (day, r) ← number 2 2 r
  let d ← Date.make? y m day
  -- What stands between the date and the time of day.
  let r ← match r with
    | 'T' :: r => some r
    | 't' :: r => some r
    | ' ' :: r => some r
    | _ => none
  let (t, r) ← timeOfDay d (number 2 2) r
  let (o, r) ← offset r
  pure (← Instant.make? (t.seconds - o) t.nanos, r)

/-- A date, what stands between, and a time of day, without an offset. -/
def withoutOffset (between : Reader Unit) : Reader Instant := fun s => do
  let (d, r) ← date s
  let (_, r) ← between r
  timeOfDay d field r

/-- White space, perhaps none. -/
def space : Reader Unit := fun s =>
  some ((), Text.trimLeft s)

/-- A number of seconds with optional decimal places: nothing if the text has
    another form, and no instant if it has this one and is refused. -/
def seconds? (s : List Char) : Option (Option Instant) :=
  let whole := s.takeWhile (· ≠ '.')
  let places := (s.dropWhile (· ≠ '.')).drop 1
  if whole ≠ [] ∧ (whole.dropWhile (· = '-')).all Char.isDigit ∧ places.all Char.isDigit then
    -- From here on no other form is tried.
    some do
      let n ← Number.integerBetween? (-0x8000000000000000) 0x7FFFFFFFFFFFFFFF whole
      let nine := places.take 9
      Instant.make? n (Number.ofDigits nine * Nat.pow 10 (9 - nine.length))
  else none

end Time

/-- The text of a date. A number of days that leaves the calendar is refused, however large it
    is. This is total where a program that counts the milliseconds of those days is not: beyond
    106751991167 days, before or after the first one, a signed word of 64 binary digits has no
    room for them, and the program breaks off. -/
def Date.read? (s : List Char) : Option Date :=
  if s = "0000-00-00".toList then some Date.epoch
  else Text.Reader.all Time.date s
    <|> (Number.integerBetween? (-0x8000000000000000) 0x7FFFFFFFFFFFFFFF s).bind Date.ofDayNumber?

/-- The text of an instant, without white space around it. -/
def Instant.read? (s : List Char) : Option Instant :=
  if "0000-00-00".toList.isPrefixOf s then some Instant.epoch
  else match Time.seconds? s with
    | some t => t
    | none =>
      Text.Reader.all Time.withOffset s
        <|> Text.Reader.all (Time.withoutOffset Time.space) s
        <|> Text.Reader.all (Time.withoutOffset (Text.Reader.char 'T')) s
        <|> (Text.Reader.all Time.date s).map Instant.ofDate

end ColumnStore
