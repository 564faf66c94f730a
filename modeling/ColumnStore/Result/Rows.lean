import ColumnStore.Result.Row
import ColumnStore.Wire.Cursor

/-!
# Reading Results

The rows of an answer, one by one, each turned into what the reader wants. Once
a row could not be read or turned, nothing more is given.

## Main definitions

* `Rows`: What is left of a result.
* `Rows.records`, `Rows.plain`: The records of a model, and plain rows.
* `Rows.next`: The next result.
* `Rows.take`, `Rows.toList`, `Rows.all`: Several results.
-/

namespace ColumnStore

/-- What is left of a result. -/
structure Rows (α : Type) where
  /-- The cursor, unless there is nothing left. -/
  cursor : Option Cursor
  /-- What becomes of the cells of a row. -/
  decode : Cells → Except Failure α

namespace Rows

variable {α : Type}

/-- The records of a model. -/
def records (m : Model) (c : Cursor) : Except Failure (Rows Record) := do
  let places ← (Places.ofHeader m (c.header.getD Header.empty)).mapError
    (·.withStatement c.statement)
  pure ⟨some c, places.record⟩

/-- Plain rows. -/
def plain (c : Cursor) : Rows Row :=
  ⟨some c, (c.header.getD Header.empty).row⟩

/-- Nothing more. -/
def close (r : Rows α) : Rows α :=
  { r with cursor := none }

/-- The next result, if there is one, and what is left after it. -/
def next (r : Rows α) : Option (Except Failure α) × Rows α :=
  match r.cursor with
  | none => (none, r)
  | some c =>
    match c.next with
    | (none, _) => (none, r.close)
    | (some (.error e), _) => (some (.error e), r.close)
    | (some (.ok cells), c) =>
      match r.decode cells with
      | .ok x => (some (.ok x), { r with cursor := some c })
      | .error e => (some (.error (e.withStatement c.statement)), r.close)

/-- The results that are left, up to the first failure and `n` at most, and what
    is left after them. -/
def take : Nat → Rows α → List (Except Failure α) × Rows α
  | 0, r => ([], r)
  | n + 1, r =>
    match r.next with
    | (none, r) => ([], r)
    | (some (.error e), r) => ([.error e], r)
    | (some (.ok x), r) =>
      let (xs, r) := take n r
      (.ok x :: xs, r)

/-- A number of results that is not reached. -/
def bound (r : Rows α) : Nat :=
  (r.cursor.map Cursor.bound).getD 0

/-- All results that are left, up to the first failure. -/
def toList (r : Rows α) : List (Except Failure α) :=
  (r.take r.bound).1

/-- All results that are left, or the first failure. -/
def all (r : Rows α) : Except Failure (List α) :=
  r.toList.mapM id

/-- The first result that is left. -/
def first (r : Rows α) : Except Failure (Option α) :=
  match r.next.1 with
  | none => .ok none
  | some (.ok x) => .ok (some x)
  | some (.error e) => .error e

end Rows

end ColumnStore
