import ColumnStore.Query.Statement
import ColumnStore.Session.Basic

/-!
# Queries of a Session

Carrying out what a query describes. Each operation asks the server anew.
Records can be had only of a query that selects fields; the rows of expressions
are plain rows.

## Main definitions

* `Session.rows`: The plain rows of a query.
* `Session.records`, `Session.fetch`, `Session.first`: Its records.
* `Session.count`, `Session.any`: Its number of rows, and whether there are any.
* `Session.page`: One page of its records.
* `Session.delete`: Deletes its rows.
-/

namespace ColumnStore

/-- One page of the records of a query. -/
structure Page where
  /-- The records of the page. -/
  records : List Record
  /-- The number of records on all pages. -/
  total : UInt64
  /-- The number of pages. -/
  pages : UInt64
  /-- The number of the page, from one up. -/
  number : UInt64
  /-- The number of records on a full page. -/
  size : UInt64

namespace Session

open Exchanging (checked result)

/-- The plain rows of a query. -/
def rows (s : Session) (q : Query) : Exchanging (Rows Row) := do
  pure (Rows.plain (← s.run q.select))

/-- The records of a query, to be read one by one. -/
def records (s : Session) (q : Query) : Exchanging (Rows Record) := do
  if q.isAggregate then throw (.build .aggregated)
  let cursor ← s.run q.select
  result (Rows.records q.model cursor)

/-- All records of a query. -/
def fetch (s : Session) (q : Query) : Exchanging (List Record) := do
  let rows ← s.records q
  result rows.all

/-- The first record of a query, if there is one. -/
def first (s : Session) (q : Query) : Exchanging (Option Record) := do
  let q ← checked (q.slice .unbounded (.excluded 1))
  let rows ← s.records q
  result rows.first

/-- The number of rows of a query. -/
def count (s : Session) (q : Query) : Exchanging UInt64 :=
  s.scalar q.count

/-- Whether a query has rows. -/
def any (s : Session) (q : Query) : Exchanging Bool := do
  let cursor ← s.run q.existence
  let row ← result (Rows.plain cursor).first
  pure row.isSome

/-- One page of the records of a query. The rows are counted first. -/
def page (s : Session) (q : Query) (number size : UInt64) : Exchanging Page := do
  let total ← s.count q
  let (start, pages) ← checked (pageStart total number size)
  let q ← checked (q.slice (.included start) (.excluded (start + size)))
  let records ← s.fetch q
  pure ⟨records, total, pages, number, size⟩

/-- Deletes the rows of a query. -/
def delete (s : Session) (q : Query) : Exchanging Unit := do
  s.ensureWritable "DELETE"
  let statement ← checked q.delete
  s.tell ⟨statement, true⟩

end Session

end ColumnStore
