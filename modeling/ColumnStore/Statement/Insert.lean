import ColumnStore.Model.Record
import ColumnStore.Statement.Definition

/-!
# Insertions

The statement that inserts records into the table of their model. It names the
columns of the fields that are written and gives a row of literals for each
record.

## Main definitions

* `Model.insert`: The statement, or the first refusal.
-/

namespace ColumnStore

namespace Model

/-- The row of a record, which must be of the model. -/
def rowSql (m : Model) (r : Record) : Except Fault (List Char) := do
  if !r.model.same m then throw (.foreignRecord r.model.table m.table)
  pure (bracketed (commaSeparated (← r.literals)))

/-- Inserts records of a model. -/
def insert (m : Model) (records : List Record) : Except Fault Statement := do
  if m.readonly then throw (.insertReadOnly m.table)
  if records.isEmpty then throw .emptyInsert
  let columns := m.insertable.map fun f => Text.quoteName f.column.toList
  let rows ← records.mapM m.rowSql
  pure (.command ("INSERT INTO ".toList ++ m.tableSql ++ ' ' ::
    (bracketed (commaSeparated columns) ++ " VALUES ".toList ++ commaSeparated rows)))

end Model

end ColumnStore
