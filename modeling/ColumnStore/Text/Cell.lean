import ColumnStore.Text.Escape

/-!
# Tab-Separated Cells

One line of a tab-separated table. A tab ends a cell, so a tab inside a cell is
written with a backslash, as are the other characters that `escape` covers. The
two characters `\N` alone are an absent cell; a cell that holds these two
characters as text is written `\\N`.

## Main definitions

* `unescape`: The text of a cell from its written form.
* `readCell`: The same, with the mark for an absent cell.
* `writeCell`: The written form of a cell.
* `splitOn`: Text cut at each occurrence of a character.
* `readCells`: The cells of a line.
* `writeCells`: The line of some cells.
-/

namespace ColumnStore

namespace Text

/-- Undoes the escapes of a cell. A backslash at the very end stands for
    itself. -/
def unescape : List Char → List Char
  | [] => []
  | ['\\'] => ['\\']
  | '\\' :: c :: r => unescapeChar c :: unescape r
  | c :: r => c :: unescape r

/-- Reads one cell; `\N` is an absent one. -/
def readCell (cell : List Char) : Option (List Char) :=
  if cell = ['\\', 'N'] then none else some (unescape cell)

/-- Writes one cell. -/
def writeCell : Option (List Char) → List Char
  | none => ['\\', 'N']
  | some s => escape s

/-- Text cut at each occurrence of a character, which belongs to no part. There
    is always at least one part. -/
def splitOn (sep : Char) : List Char → List (List Char)
  | [] => [[]]
  | c :: r =>
    if c = sep then [] :: splitOn sep r
    else match splitOn sep r with
      | [] => [[c]]
      | part :: parts => (c :: part) :: parts

/-- The cells of a line. -/
def readCells (line : List Char) : List (Option (List Char)) :=
  (splitOn '\t' line).map readCell

/-- The line of some cells. -/
def writeCells (cells : List (Option (List Char))) : List Char :=
  ['\t'].intercalate (cells.map writeCell)

end Text

end ColumnStore
