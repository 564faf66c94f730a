import ColumnStore.Model.Basic
import ColumnStore.Query.Window

/-!
# Queries

A query describes rows of a table without asking for them. Every operation
gives another query or refuses; the query that it starts from stays as it is.

Conditions and keys name fields. They are resolved when they are given: each
name is replaced by the column in which the field is stored, first in the model
that is queried, then in the joined models in their order. Keys of sorting and
grouping may also name a selected expression. What a query holds is therefore
in terms of columns only.

## Main definitions

* `Query`: A description of rows.
* `Query.all`: All rows of a model.
* `Query.filter`, `Query.exclude`: Rows under a condition.
* `Query.orderBy`, `Query.groupBy`: Keys.
* `Query.only`, `Query.aggregate`: What is selected.
* `Query.join`: Rows of another model beside those of the first.
* `Query.limit`, `Query.limitWithOffset`, `Query.slice`: Part of the rows.
* `Query.distinctRows`, `Query.mergedRows`: Rows once each, and merged rows.
-/

namespace ColumnStore

/-- How rows of two tables are paired. -/
inductive JoinKind
  /-- Pairs only. -/
  | inner
  /-- Also rows of the left table without a partner. -/
  | left
  /-- Also rows of the right table without a partner. -/
  | right
  /-- Also rows of either table without a partner. -/
  | full
  /-- One pair for each row of the left table. -/
  | anyInner
  /-- One pair for each row of the left table, or the row without a partner. -/
  | anyLeft
  deriving DecidableEq

/-- How a kind of pairing is written. -/
def JoinKind.keyword : JoinKind → String
  | inner => "INNER JOIN"
  | left => "LEFT JOIN"
  | right => "RIGHT JOIN"
  | full => "FULL JOIN"
  | anyInner => "ANY INNER JOIN"
  | anyLeft => "ANY LEFT JOIN"

/-- Another table beside the first one. -/
structure Join where
  /-- How rows are paired. -/
  kind : JoinKind
  /-- The model of the other table. -/
  model : Model
  /-- The columns on which partners agree. -/
  shared : List String

/-- A sort key. -/
structure SortTerm where
  /-- The column, or the name of a selected expression. -/
  column : String
  /-- Whether the greatest comes first. -/
  descending : Bool
  deriving DecidableEq

/-- A description of rows. -/
structure Query where
  /-- The model whose rows are described. -/
  model : Model
  /-- The conditions, all of which hold. -/
  filters : List Expr := []
  /-- The sort keys, the most important first. -/
  order : List SortTerm := []
  /-- The columns by which rows are grouped. -/
  groups : List String := []
  /-- The part of the rows that is returned. -/
  window : Window := {}
  /-- Whether equal rows are returned once. -/
  distinct : Bool := false
  /-- Whether rows are read as if all merges had been done. -/
  merged : Bool := false
  /-- The names of the selected fields, if not all are. -/
  selected : Option (List String) := none
  /-- The selected expressions with their names. If there are any, no fields are selected. -/
  aggregates : List (String × Expr) := []
  /-- The other tables. -/
  joins : List Join := []

namespace Query

/-- All rows of a model. -/
def all (m : Model) : Query where
  model := m

/-- Whether expressions are selected rather than fields. -/
def isAggregate (q : Query) : Bool :=
  !q.aggregates.isEmpty

/-- The refusal of a name. -/
def unknownField (q : Query) (name : String) : Fault :=
  .noSuchField q.model.table name

/-- The column of a field of the model or of a joined one. -/
def column? (q : Query) (name : String) : Option String :=
  match q.model.field? name with
  | some f => some f.column
  | none => q.joins.findSome? fun j => (j.model.field? name).map Field.column

/-- The column of a key, which may also be the name of a selected expression. -/
def key? (q : Query) (name : String) : Option String :=
  match q.column? name with
  | some c => some c
  | none => if q.aggregates.any fun a => a.1 = name then some name else none

/-- The column of a key, or a refusal of its name. -/
def key (q : Query) (name : String) : Except Fault String :=
  match q.key? name with
  | some c => .ok c
  | none => .error (q.unknownField name)

/-- An expression in terms of columns, or a refusal of the first name in it
    that is no field. -/
def resolve (q : Query) (e : Expr) : Except Fault Expr :=
  match e.fields.find? fun name => (q.column? name).isNone with
  | some name => .error (q.unknownField name)
  | none => .ok (e.mapFields fun name => (q.column? name).getD name)

/-- The rows under one more condition. -/
def filter (q : Query) (condition : Expr) : Except Fault Query := do
  let condition ← q.resolve condition
  pure { q with filters := q.filters ++ [condition] }

/-- The rows under one more condition that does not hold. -/
def exclude (q : Query) (condition : Expr) : Except Fault Query :=
  q.filter condition.not

/-- The name in a sort key, and whether a minus sign stands before it. -/
def splitSign (key : String) : String × Bool :=
  match key.toList with
  | '-' :: name => (String.ofList name, true)
  | _ => (key, false)

/-- The sort term of a key. -/
def sortTerm (q : Query) (key : String) : Except Fault SortTerm := do
  let (name, descending) := splitSign key
  pure ⟨← q.key name, descending⟩

/-- The rows with further sort keys. A minus sign before a name puts the
    greatest first. -/
def orderBy (q : Query) (keys : List String) : Except Fault Query := do
  let terms ← keys.mapM q.sortTerm
  pure { q with order := q.order ++ terms }

/-- The rows grouped by further keys. -/
def groupBy (q : Query) (keys : List String) : Except Fault Query := do
  let columns ← keys.mapM q.key
  pure { q with groups := q.groups ++ columns }

/-- The rows with some fields only. -/
def only (q : Query) (names : List String) : Except Fault Query := do
  if names.isEmpty then throw .emptySelection
  match names.find? fun name => (q.model.field? name).isNone with
  | some name => throw (q.unknownField name)
  | none => pure { q with selected := some names }

/-- Named expressions in terms of columns, given those before them. -/
def resolveSelection (q : Query) (seen : List (String × Expr)) :
    List (String × Expr) → Except Fault (List (String × Expr))
  | [] => .ok seen
  | (name, e) :: rest => do
    if name = "" then throw .emptyAlias
    if seen.any fun s => s.1 = name then throw (.duplicateAlias name)
    let e ← q.resolve e
    resolveSelection q (seen ++ [(name, e)]) rest

/-- The rows of named expressions. -/
def aggregate (q : Query) (selection : List (String × Expr)) : Except Fault Query := do
  if selection.isEmpty then throw .emptyAggregation
  let aggregates ← q.resolveSelection [] selection
  pure { q with aggregates := aggregates }

/-- The rows beside those of another model that agree on shared columns. -/
def join (q : Query) (kind : JoinKind) (other : Model) (shared : List String) :
    Except Fault Query := do
  if shared.isEmpty then throw .emptyJoin
  match shared.find? fun c =>
      (q.model.columnIndex? c).isNone || (other.columnIndex? c).isNone with
  | some c => throw (.joinColumn c q.model.table other.table)
  | none => pure { q with joins := q.joins ++ [⟨kind, other, shared⟩] }

/-- The first rows, whatever the window was. -/
def limit (q : Query) (n : UInt64) : Query :=
  { q with window := ⟨some n, 0⟩ }

/-- Rows after some rows, whatever the window was. -/
def limitWithOffset (q : Query) (n offset : UInt64) : Query :=
  { q with window := ⟨some n, offset⟩ }

/-- A slice of the rows. -/
def slice (q : Query) (lower upper : Bound) : Except Fault Query := do
  let window ← q.window.slice lower upper
  pure { q with window := window }

/-- The rows once each. -/
def distinctRows (q : Query) : Query :=
  { q with distinct := true }

/-- The rows as if all merges had been done. -/
def mergedRows (q : Query) : Except Fault Query :=
  if q.model.engine.any Engine.mergesRows then .ok { q with merged := true }
  else .error (.notMergeable q.model.table)

end Query

end ColumnStore
