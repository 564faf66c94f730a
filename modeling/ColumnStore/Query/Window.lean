import ColumnStore.Fault

/-!
# Windows

Which part of the rows of a query is returned: how many rows are left out at
the start, and how many follow at most. A slice narrows a window, counted from
its start, and never reaches beyond it.

Counts are words of 64 binary digits. A sum that does not fit is taken to be the
greatest count, which no table reaches.

## Main definitions

* `Window`: The rows that are returned.
* `Bound`: One end of a slice.
* `Window.slice`: The window narrowed to a slice.
* `pageCount`, `pageStart`: The number of pages, and the rows before a page.
* `Window.rows`: The rows of a list that a window returns.
-/

namespace ColumnStore

/-- The sum of two counts, or the greatest count. -/
def addCount (a b : UInt64) : UInt64 :=
  if a.toNat + b.toNat < UInt64.size then a + b else UInt64.ofNat (UInt64.size - 1)

/-- The difference of two counts, or zero. -/
def subCount (a b : UInt64) : UInt64 :=
  if b ≤ a then a - b else 0

/-- The part of the rows that is returned. -/
structure Window where
  /-- How many rows are returned at most. -/
  limit : Option UInt64 := none
  /-- How many rows are left out at the start. -/
  offset : UInt64 := 0
  deriving DecidableEq

/-- One end of a slice. -/
inductive Bound
  /-- No end. -/
  | unbounded
  /-- A row that belongs to the slice. -/
  | included (n : UInt64)
  /-- A row next to the slice. -/
  | excluded (n : UInt64)
  deriving DecidableEq

/-- The number of rows before a slice. -/
def Bound.start : Bound → UInt64
  | unbounded => 0
  | included n => n
  | excluded n => addCount n 1

/-- The number of rows up to the end of a slice. -/
def Bound.stop : Bound → Option UInt64
  | unbounded => none
  | included n => some (addCount n 1)
  | excluded n => some n

namespace Window

/-- Whether the window returns all rows. -/
def isWhole (w : Window) : Bool :=
  w.limit.isNone && w.offset = 0

/-- The window without its first rows and cut at a row, if one is given. -/
def narrow (w : Window) (start : UInt64) (stop : Option UInt64) : Window where
  offset := addCount w.offset start
  limit := match w.limit, stop with
    | none, none => none
    | none, some stop => some (subCount stop start)
    | some limit, none => some (subCount limit start)
    | some limit, some stop => some (subCount (min stop limit) start)

/-- The window narrowed to a slice. -/
def slice (w : Window) (lower upper : Bound) : Except Fault Window :=
  match upper.stop with
  | none => .ok (w.narrow lower.start none)
  | some stop =>
    if stop < lower.start then .error (.reversedSlice lower.start stop)
    else .ok (w.narrow lower.start (some stop))

/-- The rows of a list that a window returns. -/
def rows {α : Type} (w : Window) (all : List α) : List α :=
  let rest := all.drop w.offset.toNat
  match w.limit with
  | none => rest
  | some limit => rest.take limit.toNat

end Window

/-- The number of pages of some rows. There is always one. -/
def pageCount (total size : UInt64) : UInt64 :=
  let whole := total / size
  let all := if total % size = 0 then whole else whole + 1
  if all = 0 then 1 else all

/-- The number of rows before a page, and the number of pages. -/
def pageStart (total page size : UInt64) : Except Fault (UInt64 × UInt64) :=
  if size = 0 then .error .emptyPage
  else if page = 0 then .error .pageZero
  else
    let count := pageCount total size
    if count < page then .error (.pageRange page count)
    else .ok ((page - 1) * size, count)

end ColumnStore
