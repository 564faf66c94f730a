import ColumnStore.Text.Reader
import ColumnStore.Time.Date
import ColumnStore.Toml.Basic

/-!
# Days and Times in TOML

A day, a time of day, or a day with a time of day and perhaps a distance from
universal time. Every number has its fixed width. Between a day and a time there
is a letter or a single space, and a space after a day that no time follows does
not belong to the value.

## Main definitions

* `Toml.Moment.moment`: A day, a time of day, or both.
-/

namespace ColumnStore

namespace Toml.Moment

open ColumnStore.Text (Reader)

/-- A number of fixed width between bounds. -/
def fixed (width lo hi : Nat) : Reader Nat := fun s =>
  let ds := s.take width
  if ds.length = width && ds.all Char.isDigit then
    let n := Number.ofDigits ds
    if lo ≤ n && n ≤ hi then some (n, s.drop width) else none
  else none

/-- A day. -/
def day : Reader Unit := fun s => do
  let (year, r) ← fixed 4 0 9999 s
  let (_, r) ← Reader.char '-' r
  let (month, r) ← fixed 2 1 12 r
  let (_, r) ← Reader.char '-' r
  let (d, r) ← fixed 2 1 31 r
  if d ≤ Date.daysIn year month then pure ((), r) else none

/-- The places of a second, or nothing. -/
def places (s : List Char) : List Char :=
  match s with
  | '.' :: c :: r => if c.isDigit then r.dropWhile Char.isDigit else s
  | s => s

/-- A time of day. A minute may have a sixty-first second. -/
def time : Reader Unit := fun s => do
  let (_, r) ← fixed 2 0 23 s
  let (_, r) ← Reader.char ':' r
  let (_, r) ← fixed 2 0 59 r
  let (_, r) ← Reader.char ':' r
  let (_, r) ← fixed 2 0 60 r
  pure ((), places r)

/-- A distance from universal time. -/
def offset : Reader Unit := fun s =>
  match s with
  | 'Z' :: r => some ((), r)
  | 'z' :: r => some ((), r)
  | c :: r =>
    if c = '+' || c = '-' then do
      let (_, r) ← fixed 2 0 23 r
      let (_, r) ← Reader.char ':' r
      let (_, r) ← fixed 2 0 59 r
      pure ((), r)
    else none
  | [] => none

/-- The mark between a day and a time of day. -/
def isTimeMark (c : Char) : Bool :=
  c = 'T' || c = 't' || c = ' '

/-- What may follow a day: a mark and a time of day. -/
def afterDay (s : List Char) : List Char :=
  match s with
  | c :: r =>
    if isTimeMark c then
      match time r with
      | some (_, r) =>
        match offset r with
        | some (_, r) => r
        | none => r
      | none => s
    else s
  | [] => []

/-- A day, a time of day, or both. -/
def moment : Reader Toml := fun s => do
  let r ← match day s with
    | some (_, r) => some (afterDay r)
    | none => (time s).map (·.2)
  pure (.moment (String.ofList (s.take (s.length - r.length))), r)

end Toml.Moment

end ColumnStore
