import ColumnStore.Statement.Basic
import ColumnStore.Wire.Body
import ColumnStore.Wire.Header

/-!
# Cursors

A cursor reads the answer to a statement from front to back. The answer to a
question starts with a header, which is read when the cursor is opened; that to
a command has no rows. The first failure ends the cursor, and so does the end of
the answer. A cursor that is closed gives nothing more.

Every failure names the statement.

## Main definitions

* `Cursor`: What is left of an answer.
* `Cursor.start`: A cursor at the first row.
* `Cursor.next`: The next row.
* `Cursor.close`: The cursor without its rows.
* `Cursor.text`: All that is left as one text.
-/

namespace ColumnStore

/-- What is left of an answer. -/
structure Cursor where
  /-- The header, if the answer has rows. -/
  header : Option Header
  /-- The lines that are left. -/
  body : Body
  /-- The statement that is answered. -/
  statement : String
  /-- Whether rows may still be read. -/
  isOpen : Bool

namespace Cursor

/-- The next line of an answer to a statement. -/
def takeLine (statement : String) (b : Body) : Except Failure (Option (List Char)) × Body :=
  let (line, b) := b.nextLine
  (line.mapError (·.withStatement statement), b)

/-- The header at the start of an answer. An answer without lines has no columns. -/
def readHeader (statement : String) (b : Body) : Except Failure (Header × Body) := do
  let (nameLine, b) := takeLine statement b
  match ← nameLine with
  | none => pure (Header.empty, b)
  | some nameLine =>
    let (typeLine, b) := takeLine statement b
    match ← typeLine with
    | none => throw (.decode "<header>" none .noTypes (some statement))
    | some typeLine => pure (← Header.read statement nameLine typeLine, b)

/-- A cursor at the first row of an answer. -/
def start (s : Statement) (b : Body) : Except Failure Cursor := do
  if s.returnsRows then
    let (header, b) ← readHeader s.text b
    pure ⟨some header, b, s.text, true⟩
  else pure ⟨none, b, s.text, true⟩

/-- The cursor without its rows. -/
def close (c : Cursor) : Cursor :=
  { c with isOpen := false }

/-- The next row, if there is one, and what is left after it. -/
def next (c : Cursor) : Option (Except Failure Cells) × Cursor :=
  match c.header, c.isOpen with
  | some header, true =>
    let (line, body) := takeLine c.statement c.body
    let c := { c with body := body }
    match line with
    | .error e => (some (.error e), c.close)
    | .ok none => (none, c.close)
    | .ok (some line) =>
      match header.cells c.statement line with
      | .error e => (some (.error e), c.close)
      | .ok cells => (some (.ok cells), c)
  | _, _ => (none, c)

/-- All that is left as one text. -/
def text (c : Cursor) : Except Failure (List Char) :=
  c.body.text.mapError (·.withStatement c.statement)

/-- The rows that are left, up to the first failure and `n` at most, and what is
    left after them. -/
def take : Nat → Cursor → List (Except Failure Cells) × Cursor
  | 0, c => ([], c)
  | n + 1, c =>
    match c.next with
    | (none, c) => ([], c)
    | (some (.error e), c) => ([.error e], c)
    | (some (.ok cells), c) =>
      let (rows, c) := take n c
      (.ok cells :: rows, c)

/-- A number of rows that is not reached. -/
def bound (c : Cursor) : Nat :=
  c.body.size + 1

end Cursor

end ColumnStore
