import ColumnStore.Proofs.Text.Cells
import ColumnStore.Proofs.Wire.Written
import Mathlib.Data.List.Forall2

/-!
# Tables

A table that is written as lines of cells is read back: its header says the names and
the types, and its rows are the rows, whatever characters their cells hold. An absent
cell stays absent, and a text that looks like the mark of one stays a text.

The one thing that a line of cells can be taken for is an error of the server. In a
header line that matters always; in a row it matters only if the row has one cell.

## Main definitions

* `Table`: Named and typed columns with rows of their width.
* `Table.lines`: The lines of a table.

## Theorems

* `Header.read_written`: The header is read back from its two lines.
* `Header.cells_written`: A row is read back from its line.
* `Table.start_written`: A table is read back from the response that it is written as.
-/

namespace ColumnStore

open Wire

/-- Named and typed columns, one at least, with rows of their width. The types are what
    the server writes for them. -/
structure Table where
  /-- The names of the columns with their types. -/
  columns : List (List Char × List Char)
  /-- The cells of the rows. -/
  rows : List Cells
  /-- There is a column. -/
  columns_ne : columns ≠ []
  /-- A row has a cell for each column. -/
  length_row : ∀ row ∈ rows, row.length = columns.length

namespace Table

/-- The line of names. -/
def nameLine (t : Table) : List Char :=
  Text.writeCells (t.columns.map fun column => some column.1)

/-- The line of types. -/
def typeLine (t : Table) : List Char :=
  Text.writeCells (t.columns.map fun column => some column.2)

/-- All lines, header first. -/
def lines (t : Table) : List (List Char) :=
  t.nameLine :: t.typeLine :: t.rows.map Text.writeCells

/-- The header that a reader has. -/
def header (t : Table) : Header :=
  ⟨t.columns.map fun column => (String.ofList column.1, ColumnType.readLenient column.2)⟩

theorem width_header (t : Table) : t.header.width = t.columns.length :=
  List.length_map _

/-- No line holds a character that ends a line. -/
theorem of_mem_lines {t : Table} {line : List Char} (h : line ∈ t.lines) :
    '\n' ∉ line ∧ '\r' ∉ line := by
  have hcells : ∃ cells, line = Text.writeCells cells := by
    rcases List.mem_cons.1 h with rfl | h
    · exact ⟨_, rfl⟩
    · rcases List.mem_cons.1 h with rfl | h
      · exact ⟨_, rfl⟩
      · rcases List.mem_map.1 h with ⟨row, -, rfl⟩
        exact ⟨row, rfl⟩
  rcases hcells with ⟨cells, rfl⟩
  exact ⟨fun hm => (Text.of_mem_writeCells hm).1 rfl, fun hm => (Text.of_mem_writeCells hm).2 rfl⟩

end Table

namespace Header

/-- Texts are read back from the line that is written for them. -/
theorem texts_writeCells {texts : List (List Char)} (h : texts ≠ []) :
    Header.texts (Text.writeCells (texts.map some)) = texts := by
  have hsome : ∀ s ∈ texts, ((fun cell : Option (List Char) => cell.getD []) ∘ some) s = s :=
    fun s _ => rfl
  rw [Header.texts, Text.readCells_writeCells (by simpa using h), List.map_map,
    List.map_congr_left hsome, List.map_id']

/-- The header is read back from the two lines that are written for it. -/
theorem read_written {statement : String} {t : Table}
    (hnames : exceptionLine? statement t.nameLine = none)
    (htypes : exceptionLine? statement t.typeLine = none) :
    Header.read statement t.nameLine t.typeLine = .ok t.header := by
  have hname : Header.texts t.nameLine = t.columns.map (·.1) := by
    have hline : t.nameLine = Text.writeCells ((t.columns.map (·.1)).map some) := by
      rw [List.map_map]
      rfl
    rw [hline, texts_writeCells (by simpa using t.columns_ne)]
  have htype : Header.texts t.typeLine = t.columns.map (·.2) := by
    have hline : t.typeLine = Text.writeCells ((t.columns.map (·.2)).map some) := by
      rw [List.map_map]
      rfl
    rw [hline, texts_writeCells (by simpa using t.columns_ne)]
  have hzip : ((t.columns.map (·.1)).map String.ofList).zip
      ((t.columns.map (·.2)).map ColumnType.readLenient) = t.header.columns := by
    rw [List.map_map, List.map_map, List.zip_map']
    rfl
  simp only [Header.read, hnames, htypes, hname, htype, List.length_map, if_true, hzip]
  rfl

/-- A row is read back from the line that is written for it. A row of one cell must not
    read as an error. -/
theorem cells_written {statement : String} {h : Header} {row : Cells} (hne : row ≠ [])
    (hwidth : row.length = h.width)
    (hrow : h.width = 1 → exceptionLine? statement (Text.writeCells row) = none) :
    h.cells statement (Text.writeCells row) = .ok row := by
  have hfound := Text.readCells_writeCells hne
  rw [cells_of_length (by rwa [hfound]) hrow, hfound]

end Header

/-- A table is read back from the response that it is written as, whether the response is
    read as a whole or as it arrives, in any chunks. Neither line of the header may read
    as an error, and in a table of one column no row may. -/
theorem Table.start_written {statement : String} {t : Table} {chunks : List Bytes}
    (hwritten : Writes t.lines chunks.flatten)
    (hnames : exceptionLine? statement t.nameLine = none)
    (htypes : exceptionLine? statement t.typeLine = none)
    (hrows : t.columns.length = 1 →
      ∀ row ∈ t.rows, exceptionLine? statement (Text.writeCells row) = none) (mode : Mode) :
    ∃ c, Cursor.start ⟨statement, true⟩ (Body.ofChunks mode chunks) = .ok c ∧
      c.header = some t.header ∧ Yields Cursor.next c (t.rows.map .ok) := by
  have hlines : lineTexts statement chunks.flatten = t.lines.map .ok :=
    lineTexts_of_writes statement (fun _ => Table.of_mem_lines) hwritten
  have hcells : List.Forall₂ (fun text cells => t.header.cells statement text = .ok cells)
      (t.rows.map Text.writeCells) t.rows := by
    rw [List.forall₂_map_left_iff, List.forall₂_same]
    intro row hrow
    have hlength := t.length_row row hrow
    rw [← t.width_header] at hlength
    refine Header.cells_written ?_ hlength fun hone => hrows (by rwa [← t.width_header]) row hrow
    intro hnil
    rw [hnil, List.length_nil, t.width_header] at hlength
    exact t.columns_ne (List.length_eq_zero_iff.1 hlength.symm)
  have hall : rowsOf statement t.header ((t.rows.map Text.writeCells).map .ok) =
      t.rows.map .ok := by
    have happend := rowsOf_append hcells []
    have hnil : rowsOf statement t.header [] = [] := rfl
    rwa [List.append_nil, hnil, List.append_nil] at happend
  have hread : Answer.read statement chunks.flatten =
      .ok ⟨statement, t.header, t.rows.map .ok⟩ := by
    rw [Answer.read, hlines, Table.lines, List.map_cons, List.map_cons, Answer.ofTexts_two,
      Header.read_written hnames htypes, Except.map, hall]
  exact Cursor.opens_of_read mode hread

/-- One column whose cells look like marks of the format. -/
def Table.marks : Table where
  columns := [("note".toList, "Nullable(String)".toList)]
  rows := [[none], [some "\\N".toList], [some "NULL".toList], [some []],
    [some "Code: 1\t\r\n".toList]]
  columns_ne := by decide
  length_row := by decide

/-- The same as a response of two chunks, whose last line lacks its end. -/
def Table.marksResponse : List Bytes :=
  [encode "note\nNullable(Str".toList,
    encode "ing)\n\\N\n\\\\N\nNULL\n\nCode: 1\\t\\r\\n".toList]

theorem Table.marks_read_back :
    ∃ c, Cursor.start ⟨"SELECT note FROM notes", true⟩
        (Body.ofChunks .streaming Table.marksResponse) = .ok c ∧
      c.header = some Table.marks.header ∧ Yields Cursor.next c (Table.marks.rows.map .ok) := by
  have hquiet : ∀ row ∈ Table.marks.rows,
      (exceptionLine? "SELECT note FROM notes" (Text.writeCells row)).isNone := by decide
  exact Table.start_written
    (Or.inr ⟨Table.marks.lines.dropLast, "Code: 1\\t\\r\\n".toList, rfl, by decide, rfl⟩) rfl rfl
    (fun _ row hrow => Option.isNone_iff_eq_none.1 (hquiet row hrow)) .streaming

end ColumnStore
