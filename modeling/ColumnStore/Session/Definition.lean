import ColumnStore.Session.Basic
import ColumnStore.Statement.Definition

/-!
# Tables and Databases of a Session

Creating and dropping the database of a session and tables in it, and asking for
a table. What concerns the database as a whole is carried out outside it, since
it may not be there.

## Main definitions

* `Session.createDatabase`, `Session.dropDatabase`: The database.
* `Session.createTable`, `Session.dropTable`, `Session.tableExists`: A table.
-/

namespace ColumnStore

namespace Session

/-- Creates the database. -/
def createDatabase (s : Session) (engine : Option DatabaseEngine) : Exchanging Unit := do
  s.ensureWritable "CREATE DATABASE"
  s.tell ⟨ColumnStore.createDatabase s.name engine, false⟩

/-- Drops the database. -/
def dropDatabase (s : Session) : Exchanging Unit := do
  s.ensureWritable "DROP DATABASE"
  s.tell ⟨ColumnStore.dropDatabase s.name, false⟩

/-- Creates the table of a model. -/
def createTable (s : Session) (m : Model) : Exchanging Unit := do
  s.ensureWritable "CREATE TABLE"
  let statement ← Exchanging.checked (m.createTable s.name)
  s.tell ⟨statement, true⟩

/-- Drops the table of a model. -/
def dropTable (s : Session) (m : Model) : Exchanging Unit := do
  s.ensureWritable "DROP TABLE"
  s.tell ⟨m.dropTable, true⟩

/-- Whether the table of a model is there. -/
def tableExists (s : Session) (m : Model) : Exchanging Bool := do
  let answer ← s.scalar m.tableExists
  pure (answer ≠ 0)

end Session

end ColumnStore
