import ColumnStore.DatabaseEngine
import ColumnStore.Model.Basic
import ColumnStore.Statement.Basic

/-!
# Statements of Definition

Statements that create, drop or ask for tables and databases. Creating what is
there and dropping what is not there change nothing.

## Main definitions

* `Model.createTable`, `Model.dropTable`, `Model.tableExists`: Statements about
  the table of a model.
* `createDatabase`, `dropDatabase`: Statements about a database.
-/

namespace ColumnStore

namespace Model

/-- The name of the table as it is written. -/
def tableSql (m : Model) : List Char :=
  Text.quoteName m.table.toList

/-- The definition of the column of a field. -/
def columnSql (f : Field) : Except Fault (List Char) := do
  pure (Text.quoteName f.column.toList ++ ' ' :: (← f.sql))

/-- Creates the table of a model in a database. -/
def createTable (m : Model) (database : String) : Except Fault Statement := do
  match m.engine with
  | none => throw (.noEngine m.table)
  | some engine =>
    let columns ← m.fields.mapM columnSql
    let engine ← engine.sql database
    pure (.command ("CREATE TABLE IF NOT EXISTS ".toList ++ m.tableSql ++ ' ' ::
      (bracketed (commaSeparated columns) ++ " ENGINE = ".toList ++ engine)))

/-- Drops the table of a model. -/
def dropTable (m : Model) : Statement :=
  .command ("DROP TABLE IF EXISTS ".toList ++ m.tableSql)

/-- Asks whether the table of a model is there. The answer is one row with 0 or 1. -/
def tableExists (m : Model) : Statement :=
  .query ("EXISTS TABLE ".toList ++ m.tableSql)

end Model

/-- Creates a database. -/
def createDatabase (name : String) (engine : Option DatabaseEngine) : Statement :=
  let engine := match engine with
    | some e => " ENGINE = ".toList ++ e.sql
    | none => []
  .command ("CREATE DATABASE IF NOT EXISTS ".toList ++ Text.quoteName name.toList ++ engine)

/-- Drops a database. -/
def dropDatabase (name : String) : Statement :=
  .command ("DROP DATABASE IF EXISTS ".toList ++ Text.quoteName name.toList)

end ColumnStore
