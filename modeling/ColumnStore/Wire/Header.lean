import ColumnStore.ColumnType.Reader
import ColumnStore.Text.Cell
import ColumnStore.Wire.Exception

/-!
# Headers of Results

The first two lines of a result name its columns and their types. A type that
is not known is read as text. A row has one cell for each column.

An error of the server in place of a line is told from a row by its width. In a
result of one column it cannot be told, and then a line that reads as an error
is one.

## Main definitions

* `Header`: The columns of a result.
* `Header.read`: The header of two lines.
* `Header.cells`: The cells of a row.

## Theorems

* `read_of_exception`, `read_of_typeException`: An error in place of a header line.
* `cells_of_exception`: An error in place of a row.
* `cells_of_length`: A line of the right width is a row.
-/

namespace ColumnStore

/-- The cells of a row. A cell without content has no text. -/
abbrev Cells := List (Option (List Char))

/-- The columns of a result. -/
structure Header where
  /-- The names of the columns with their types. -/
  columns : List (String × ColumnType)

namespace Header

/-- The header of a result without columns. -/
def empty : Header := ⟨[]⟩

/-- The names of the columns. -/
def names (h : Header) : List String :=
  h.columns.map (·.1)

/-- The types of the columns. -/
def types (h : Header) : List ColumnType :=
  h.columns.map (·.2)

/-- The number of columns. -/
def width (h : Header) : Nat :=
  h.columns.length

/-- The position of the first column of a name. -/
def indexOf? (h : Header) (name : String) : Option Nat :=
  h.names.findIdx? (· = name)

/-- The texts of a line. A cell without content counts as an empty text. -/
def texts (line : List Char) : List (List Char) :=
  (Text.readCells line).map fun cell => cell.getD []

/-- The header of a line of names and a line of types. -/
def read (statement : String) (nameLine typeLine : List Char) : Except Failure Header := do
  if let some e := Wire.exceptionLine? statement nameLine then throw e
  if let some e := Wire.exceptionLine? statement typeLine then throw e
  let names := (texts nameLine).map String.ofList
  let types := (texts typeLine).map ColumnType.readLenient
  if names.length = types.length then pure ⟨names.zip types⟩
  else throw (.decode "<header>" (some (String.ofList typeLine))
    (.headerWidth names.length types.length) (some statement))

/-- The column that a row of the wrong width is blamed on: the first one without
    a cell, or the last one if there are too many cells. -/
def blamed (h : Header) (found : Nat) : String :=
  (h.names[min found (h.width - 1)]?).getD "<row>"

/-- The cells of a row. -/
def cells (h : Header) (statement : String) (line : List Char) : Except Failure Cells := do
  let found := Text.readCells line
  if found.length ≠ h.width || h.width = 1 then
    if let some e := Wire.exceptionLine? statement line then throw e
  if found.length = h.width then pure found
  else throw (.decode (h.blamed found.length) (some (String.ofList line))
    (.rowWidth h.width found.length) (some statement))

/-- A line of names that reads as an error is one, whatever the line of types is. -/
theorem read_of_exception {statement : String} {nameLine : List Char} {e : Failure}
    (he : Wire.exceptionLine? statement nameLine = some e) (typeLine : List Char) :
    read statement nameLine typeLine = .error e := by
  simp only [read, he]
  rfl

theorem read_of_typeException {statement : String} {nameLine typeLine : List Char} {e : Failure}
    (hnames : Wire.exceptionLine? statement nameLine = none)
    (he : Wire.exceptionLine? statement typeLine = some e) :
    read statement nameLine typeLine = .error e := by
  simp only [read, hnames, he]
  rfl

/-- A line that reads as an error is one if it cannot be a row of this width, and also
    if it cannot be told from a row. -/
theorem cells_of_exception {h : Header} {statement : String} {line : List Char} {e : Failure}
    (he : Wire.exceptionLine? statement line = some e)
    (hrow : (Text.readCells line).length ≠ h.width ∨ h.width = 1) :
    h.cells statement line = .error e := by
  have hlooks : (decide ((Text.readCells line).length ≠ h.width) || decide (h.width = 1)) = true := by
    simpa using hrow
  simp only [cells, hlooks, if_true, he]
  rfl

/-- A line of the right width is a row. In a result of one column it must not read as an
    error. -/
theorem cells_of_length {h : Header} {statement : String} {line : List Char}
    (hlength : (Text.readCells line).length = h.width)
    (hrow : h.width = 1 → Wire.exceptionLine? statement line = none) :
    h.cells statement line = .ok (Text.readCells line) := by
  by_cases hone : h.width = 1
  · simp only [cells, hlength, hone, hrow hone]
    rfl
  · simp [cells, hlength, hone, pure, Except.pure]

end Header

end ColumnStore
