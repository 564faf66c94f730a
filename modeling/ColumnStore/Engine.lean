import ColumnStore.Expr.Builtin
import ColumnStore.Expr.Sql
import ColumnStore.Fault
import ColumnStore.Keyed

/-!
# Table Engines

How a table keeps its rows, and how that is written when the table is created.

Tables of the merge family sort their rows by a key and merge them in the
background. Its members differ in what a merge does with rows of one key: it
keeps them, cancels them against each other, adds them up, or keeps the last.
Where a merge changes rows, a reader can ask for them as if all merges had been
done.

## Main definitions

* `MergeTree`: A table of the merge family, with its keys and settings.
* `Buffer`: A table in memory in front of another one.
* `Engine`: The engine of a table.
* `Engine.sql`: How an engine is written.
-/

namespace ColumnStore

/-- What a merge does with rows of one key. -/
inductive MergeRule
  /-- It keeps all. -/
  | keep
  /-- It drops pairs of rows of which one takes the other back. -/
  | collapse (sign : String)
  /-- It adds up the given columns, or all if none is given. -/
  | sum (columns : List String)
  /-- It keeps the last row, or the one of the highest version. -/
  | replace (version : Option String)
  deriving DecidableEq

/-- A table of the merge family. -/
structure MergeTree where
  /-- What a merge does. -/
  rule : MergeRule := .keep
  /-- What divides the rows into parts that are kept apart. -/
  partitionKey : List Expr := []
  /-- What the rows are sorted by. -/
  sortKey : List Expr
  /-- What rows are found by, if it is not the sort key. -/
  primaryKey : List Expr := []
  /-- What a sample of the rows is drawn by. -/
  sampleKey : Option Expr := none
  /-- Settings of the table by name. -/
  settings : List (String × String)
  /-- The path and the name of a replica. -/
  replica : Option (String × String) := none

namespace MergeTree

/-- The setting for the number of rows between two marks of the index. -/
def granularityKey : String := "index_granularity"

/-- The usual number of rows between two marks of the index. -/
def granularity : Nat := 8192

/-- A table that is sorted by some columns. -/
def sortedBy (columns : List String) : MergeTree where
  sortKey := columns.map .field
  settings := [(granularityKey, String.ofList (Number.digits granularity))]

/-- The table with its rows divided by the month of a day. -/
def byMonth (column : String) (t : MergeTree) : MergeTree :=
  { t with partitionKey := [Builtin.toYearMonth.apply [.field column]] }

/-- The table with a setting, which replaces one of the same name. -/
def withSetting (name value : String) (t : MergeTree) : MergeTree :=
  { t with settings := Keyed.insert name value t.settings }

/-- The name of the member of the family. -/
def name (t : MergeTree) : String :=
  let base := match t.rule with
    | .keep => "MergeTree"
    | .collapse _ => "CollapsingMergeTree"
    | .sum _ => "SummingMergeTree"
    | .replace _ => "ReplacingMergeTree"
  if t.replica.isSome then "Replicated" ++ base else base

/-- Names with commas between them. -/
def commaNames (names : List String) : List Char :=
  commaSeparated (names.map fun n => Text.quoteName n.toList)

/-- The arguments that the rule of a merge takes. -/
def ruleArguments : MergeRule → List (List Char)
  | .keep => []
  | .collapse sign => [Text.quoteName sign.toList]
  | .sum [] => []
  | .sum columns => [bracketed (commaNames columns)]
  | .replace none => []
  | .replace (some version) => [Text.quoteName version.toList]

/-- The arguments of the engine. -/
def arguments (t : MergeTree) : List (List Char) :=
  let replica := match t.replica with
    | some (path, name) => [Text.quote path.toList, Text.quote name.toList]
    | none => []
  replica ++ ruleArguments t.rule

/-- A clause with expressions in brackets, left out if there are none. -/
def keyClause (head : String) (key : List Expr) : List Char :=
  if key.isEmpty then [] else head.toList ++ bracketed (Expr.commaSql key)

/-- The clause of the settings, left out if there are none. -/
def settingsClause (settings : List (String × String)) : List Char :=
  if settings.isEmpty then []
  else " SETTINGS ".toList ++
    commaSeparated (settings.map fun (k, v) => k.toList ++ '=' :: v.toList)

/-- How a table of the family is written. -/
def sql (t : MergeTree) : Except Fault (List Char) := do
  if t.sortKey.isEmpty && t.primaryKey.isEmpty then throw .noSortKey
  if let some (path, name) := t.replica then
    if path = "" || name = "" then throw .incompleteReplica
  let sample := match t.sampleKey with
    | some e => " SAMPLE BY ".toList ++ e.sql
    | none => []
  pure (t.name.toList ++ bracketed (commaSeparated t.arguments)
    ++ keyClause " PARTITION BY " t.partitionKey
    ++ " ORDER BY ".toList ++ bracketed (Expr.commaSql t.sortKey)
    ++ keyClause " PRIMARY KEY " t.primaryKey ++ sample ++ settingsClause t.settings)

end MergeTree

/-- A table in memory in front of another one. Its rows move on when all lower
    limits or one upper limit is passed. -/
structure Buffer where
  /-- The table that the rows move on to. -/
  target : String
  /-- The number of independent buffers. -/
  layers : UInt32 := 16
  /-- The least age of the rows, in seconds. -/
  minSeconds : UInt64 := 10
  /-- The greatest age of the rows, in seconds. -/
  maxSeconds : UInt64 := 100
  /-- The least number of rows. -/
  minRows : UInt64 := 10000
  /-- The greatest number of rows. -/
  maxRows : UInt64 := 1000000
  /-- The least number of bytes. -/
  minBytes : UInt64 := 10000000
  /-- The greatest number of bytes. -/
  maxBytes : UInt64 := 100000000
  deriving DecidableEq

/-- The limits of a buffer, in the order in which they are written. -/
def Buffer.limits (b : Buffer) : List Nat :=
  [b.layers.toNat, b.minSeconds.toNat, b.maxSeconds.toNat, b.minRows.toNat, b.maxRows.toNat,
    b.minBytes.toNat, b.maxBytes.toNat]

/-- The engine of a table. -/
inductive Engine
  /-- A small table in files. -/
  | tinyLog
  /-- A table in files. -/
  | log
  /-- A table in memory. -/
  | memory
  /-- A table of the merge family. -/
  | mergeTree (table : MergeTree)
  /-- A view of all tables of the database whose names fit a pattern. -/
  | union (pattern : String)
  /-- A buffer in front of a table. -/
  | buffer (b : Buffer)
  /-- A table that is spread over the servers of a cluster. -/
  | distributed (cluster table : String) (shardingKey : Option Expr)

namespace Engine

/-- The name of an engine before its arguments. -/
def applied (name : String) (arguments : List (List Char)) : List Char :=
  name.toList ++ bracketed (commaSeparated arguments)

/-- How an engine is written, for a table of a database. -/
def sql (database : String) : Engine → Except Fault (List Char)
  | tinyLog => .ok "TinyLog".toList
  | log => .ok "Log".toList
  | memory => .ok "Memory".toList
  | mergeTree t => t.sql
  | union pattern =>
    .ok (applied "Merge" [Text.quoteName database.toList, Text.quote pattern.toList])
  | buffer b =>
    .ok (applied "Buffer" (Text.quoteName database.toList :: Text.quoteName b.target.toList
      :: b.limits.map Number.digits))
  | distributed cluster table shardingKey =>
    if table = "" then .error .noUnderlyingTable
    else .ok (applied "Distributed" (Text.quoteName cluster.toList
      :: Text.quoteName database.toList :: Text.quoteName table.toList
      :: (shardingKey.map Expr.sql).toList))

/-- Whether rows can be inserted. -/
def writable : Engine → Bool
  | union _ => false
  | _ => true

/-- Whether a merge changes rows, so that reading them merged means something. -/
def mergesRows : Engine → Bool
  | mergeTree t => t.rule ≠ .keep
  | _ => false

end Engine

end ColumnStore
