import ColumnStore.Query.Basic
import ColumnStore.Statement.Definition

/-!
# Statements of Queries

The statements that return the rows of a query, count them, ask whether there
are any, and delete them. The order of their clauses is fixed.

Counting and asking leave out what does not change the number of rows, namely
the selection and the order. Where something else could change it, the query
stands as a whole inside the statement. A deletion takes a condition and
nothing else, so a query is refused if its condition alone does not describe
its rows.

## Main definitions

* `Query.select`, `Query.count`, `Query.existence`, `Query.delete`: The statements.
* `Query.selectText`: The text of the first.
-/

namespace ColumnStore

namespace Query

/-- The name of a column as it is written. -/
def columnSql (name : String) : List Char :=
  Text.quoteName name.toList

/-- A selected field. If there are other tables, the column is qualified by its
    table and named as before. -/
def fieldSql (q : Query) (f : Field) : List Char :=
  let column := columnSql f.column
  if q.joins.isEmpty then column
  else q.model.tableSql ++ '.' :: (column ++ " AS ".toList ++ column)

/-- A selected expression with its name. -/
def aliasSql (a : String × Expr) : List Char :=
  a.2.sql ++ " AS ".toList ++ columnSql a.1

/-- The selected fields, in the order of the model. -/
def selectedFields (q : Query) : List Field :=
  match q.selected with
  | none => q.model.fields
  | some names => q.model.fields.filter fun f => names.contains f.name

/-- What is selected. -/
def selection (q : Query) : List (List Char) :=
  if q.isAggregate then q.aggregates.map aliasSql else q.selectedFields.map q.fieldSql

/-- Another table and how it is joined. -/
def joinSql (j : Join) : List Char :=
  ' ' :: (j.kind.keyword.toList ++ ' ' :: (j.model.tableSql ++ " USING ".toList ++
    bracketed (commaSeparated (j.shared.map columnSql))))

/-- The clause of the tables. -/
def fromClause (q : Query) : List Char :=
  " FROM ".toList ++ q.model.tableSql ++ (if q.merged then " FINAL".toList else [])
    ++ q.joins.flatMap joinSql

/-- The condition that all filters make. -/
def condition? (q : Query) : Option Expr :=
  Expr.conjunction? q.filters

/-- The clause of the condition. -/
def whereClause (q : Query) : List Char :=
  match q.condition? with
  | some c => " WHERE ".toList ++ c.sql
  | none => []

/-- The clause of the groups. -/
def groupClause (q : Query) : List Char :=
  if q.groups.isEmpty then []
  else " GROUP BY ".toList ++ commaSeparated (q.groups.map columnSql)

/-- A sort key. -/
def sortSql (t : SortTerm) : List Char :=
  columnSql t.column ++ (if t.descending then " DESC".toList else [])

/-- The clause of the sort keys. -/
def orderClause (q : Query) : List Char :=
  if q.order.isEmpty then []
  else " ORDER BY ".toList ++ commaSeparated (q.order.map sortSql)

/-- The clause of the window. Rows are left out only beside a limit, so where
    there is none the greatest count stands for it. -/
def windowClause (w : Window) : List Char :=
  if w.isWhole then []
  else
    let limit := " LIMIT ".toList ++ Number.digits (w.limit.elim (UInt64.size - 1) UInt64.toNat)
    if w.offset = 0 then limit
    else limit ++ " OFFSET ".toList ++ Number.digits w.offset.toNat

/-- The text that returns the rows. -/
def selectText (q : Query) : List Char :=
  "SELECT ".toList ++ (if q.distinct then "DISTINCT ".toList else [])
    ++ commaSeparated q.selection ++ q.fromClause ++ q.whereClause ++ q.groupClause
    ++ q.orderClause ++ windowClause q.window

/-- Whether nothing but a condition describes the rows of the tables. -/
def isPlain (q : Query) : Bool :=
  !q.distinct && q.groups.isEmpty && q.aggregates.isEmpty && q.joins.isEmpty
    && q.window.isWhole

/-- Where the rows are that are counted: those under the condition, or those
    that the query returns. -/
def source (q : Query) : List Char :=
  if q.isPlain then q.fromClause ++ q.whereClause
  else " FROM ".toList ++ bracketed q.selectText

/-- Returns the rows. -/
def select (q : Query) : Statement :=
  .query q.selectText

/-- Counts the rows. -/
def count (q : Query) : Statement :=
  .query ("SELECT count(*)".toList ++ q.source)

/-- Returns a row if there are rows. -/
def existence (q : Query) : Statement :=
  .query ("SELECT 1".toList ++ q.source ++ " LIMIT 1".toList)

/-- Deletes the rows. -/
def delete (q : Query) : Except Fault Statement := do
  if q.model.readonly then throw (.deleteReadOnly q.model.table)
  if !q.isPlain then throw .deleteShape
  let condition := (q.condition?.map Expr.sql).getD ['1']
  pure (.command ("ALTER TABLE ".toList ++ q.model.tableSql ++ " DELETE WHERE ".toList
    ++ condition))

end Query

end ColumnStore
