import ColumnStore.Model.Record
import ColumnStore.Wire.Header

/-!
# Rows of a Result

The cells of a row become either a record of a model or a plain row. For a
record the columns of the result are first assigned to fields, once for all
rows; a column that no field is stored in is refused, and a field without a
column keeps its default. A plain row has the types that the result names.

## Main definitions

* `Row`: Values with the names of their columns.
* `Places`: The fields of the columns of a result.
* `Places.ofHeader`: The fields for a header.
* `Places.record`, `Header.row`: The record and the row of some cells.
-/

namespace ColumnStore

/-- A row of a result. -/
structure Row where
  /-- The names of the columns with the values of the row. -/
  entries : List (String × Value)

namespace Row

/-- The names of the columns. -/
def columns (r : Row) : List String :=
  r.entries.map (·.1)

/-- The values of the row. -/
def values (r : Row) : List Value :=
  r.entries.map (·.2)

/-- The value in the first column of a name. -/
def get? (r : Row) (column : String) : Option Value :=
  (r.entries.find? fun e => e.1 = column).map (·.2)

/-- The value in a column, converted to a target. -/
def getAs (r : Row) (column : String) (target : Target) : Except Failure Value :=
  match r.get? column with
  | none => .error (.decode column none .missingColumn none)
  | some v =>
    match v.to? target with
    | some w => .ok w
    | none => .error (.decode column none (.conversion v.kind target) none)

end Row

/-- The value of a cell in a column of a result. -/
def decodeColumn (column : String × ColumnType) (cell : Option (List Char)) :
    Except Failure (String × Value) :=
  match column.2.decodeCell cell with
  | .ok v => .ok (column.1, v)
  | .error e => .error (.ofCell column.1 cell (.cell e))

/-- The row of some cells. -/
def Header.row (h : Header) (cells : Cells) : Except Failure Row :=
  ((h.columns.zip cells).mapM fun p => decodeColumn p.1 p.2).map Row.mk

/-- The fields of a model for the columns of a result. -/
structure Places where
  /-- The model. -/
  model : Model
  /-- The position of the field of each column. -/
  fields : List (Fin model.fields.length)

namespace Places

/-- The field of a column, or a refusal of the column. -/
def find (m : Model) (column : String) : Except Failure (Fin m.fields.length) :=
  match m.columnIndex? column with
  | some i => .ok i
  | none => .error (.decode column none (.unknownColumn m.table) none)

/-- The fields of a model for a header. -/
def ofHeader (m : Model) (h : Header) : Except Failure Places := do
  pure ⟨m, ← h.names.mapM (find m)⟩

/-- The values of some fields set from cells, one after the other. -/
def fill (m : Model) :
    List (Fin m.fields.length × Option (List Char)) → List Value → Except Failure (List Value)
  | [], values => .ok values
  | (i, cell) :: rest, values => do
    let v ← (m.fields.get i).decode cell
    fill m rest (values.set i.val v)

/-- Setting values keeps their number. -/
theorem length_of_fill {m : Model} {cells : List (Fin m.fields.length × Option (List Char))}
    {values result : List Value} (h : fill m cells values = .ok result) :
    result.length = values.length := by
  induction cells generalizing values with
  | nil =>
    simp only [fill, Except.ok.injEq] at h
    rw [h]
  | cons c cells ih =>
    obtain ⟨i, cell⟩ := c
    simp only [fill] at h
    cases hd : (m.fields.get i).decode cell with
    | error e =>
      rw [hd] at h
      cases h
    | ok v =>
      rw [hd] at h
      simpa using ih h

/-- The record of some cells. -/
def record (p : Places) (cells : Cells) : Except Failure Record :=
  match h : fill p.model (p.fields.zip cells) (p.model.fields.map Field.default) with
  | .ok values => .ok ⟨p.model, values, by simpa using length_of_fill h⟩
  | .error e => .error e

end Places

end ColumnStore
