import ColumnStore.Expr.Sql

/-!
# Database Engines

Where the tables of a database are: on the server itself, or in a database of
another system that the server reads.

## Main definitions

* `RemoteDatabase`: A database of another system.
* `DatabaseEngine`: The engine of a database.
* `DatabaseEngine.sql`: How an engine is written.
-/

namespace ColumnStore

/-- A database of another system. -/
structure RemoteDatabase where
  /-- The machine of the system. -/
  host : String
  /-- Its port there. -/
  port : UInt16
  /-- The name of the database. -/
  database : String
  /-- The name of the user. -/
  user : String
  /-- The password of the user. -/
  password : String
  deriving DecidableEq

/-- The arguments that name a database of another system. -/
def RemoteDatabase.arguments (d : RemoteDatabase) : List (List Char) :=
  [d.host.toList ++ ':' :: Number.digits d.port.toNat, d.database.toList, d.user.toList,
    d.password.toList].map Text.quote

/-- The engine of a database. -/
inductive DatabaseEngine
  /-- Tables on the server. -/
  | atomic
  /-- Tables on the server that leave its memory some seconds after their last use. -/
  | lazy (seconds : UInt64)
  /-- Tables of a MySQL server. -/
  | mysql (remote : RemoteDatabase)
  /-- Tables of a PostgreSQL server. -/
  | postgresql (remote : RemoteDatabase) (schema : Option String) (cached : Option Bool)
  /-- Tables in an SQLite file. -/
  | sqlite (path : String)
  deriving DecidableEq

namespace DatabaseEngine

/-- A switch as an argument. -/
def switch (on : Bool) : List Char :=
  if on then ['1'] else ['0']

/-- How an engine is written. -/
def sql : DatabaseEngine → List Char
  | atomic => "Atomic".toList
  | lazy seconds => "Lazy".toList ++ bracketed (Number.digits seconds.toNat)
  | mysql remote => "MySQL".toList ++ bracketed (commaSeparated remote.arguments)
  | postgresql remote schema cached =>
    let schema := (schema.map fun s => Text.quote s.toList).toList
    let cached := (cached.map switch).toList
    "PostgreSQL".toList ++ bracketed (commaSeparated (remote.arguments ++ schema ++ cached))
  | sqlite path => "SQLite".toList ++ bracketed (Text.quote path.toList)

end DatabaseEngine

end ColumnStore
