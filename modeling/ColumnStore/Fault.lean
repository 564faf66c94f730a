import ColumnStore.CodecError
import ColumnStore.ColumnType.Check

/-!
# Refusals before Sending

Why a model, a record, a query or a write is refused while it is put together.
Nothing has been sent to a server by then.

## Main definitions

* `Fault`: The causes.
* `Fault.message`: Their messages.
-/

namespace ColumnStore

/-- Why something is refused while it is put together. -/
inductive Fault
  /-- A model without a table. -/
  | emptyTable
  /-- A model without fields. -/
  | noFields (table : String)
  /-- Two fields of a model with one name. -/
  | duplicateField (table field : String)
  /-- Two fields of a model in one column. -/
  | duplicateColumn (table column : String)
  /-- A field without a name. -/
  | emptyField
  /-- A field with an empty column name. -/
  | emptyColumn (field : String)
  /-- A field with an empty compression. -/
  | emptyCompression (field : String)
  /-- A field with more than one source of its values. -/
  | severalSources (field : String)
  /-- A field of a type that no table can have. -/
  | fieldType (field : String) (fault : TypeFault)
  /-- A value that the type of a field refuses. -/
  | fieldValue (field : String) (error : CodecError)
  /-- A name that is no field of a model. -/
  | noSuchField (table field : String)
  /-- A table without a sort key where there must be one. -/
  | noSortKey
  /-- A replica of which only one half of its name is given. -/
  | incompleteReplica
  /-- A distributed table without a table below it. -/
  | noUnderlyingTable
  /-- A selection of no fields. -/
  | emptySelection
  /-- An aggregation of nothing. -/
  | emptyAggregation
  /-- A selected expression without a name. -/
  | emptyAlias
  /-- Two selected expressions with one name. -/
  | duplicateAlias (name : String)
  /-- A join without shared columns. -/
  | emptyJoin
  /-- A column of a join that one of the tables lacks. -/
  | joinColumn (column left right : String)
  /-- A slice that ends before it starts. -/
  | reversedSlice (start stop : UInt64)
  /-- Merged reading of a table that cannot be read so. -/
  | notMergeable (table : String)
  /-- A page without room for rows. -/
  | emptyPage
  /-- A page number below the first. -/
  | pageZero
  /-- A page number above the last. -/
  | pageRange (page last : UInt64)
  /-- A deletion from a model that is only read. -/
  | deleteReadOnly (table : String)
  /-- A deletion of rows that no condition alone describes. -/
  | deleteShape
  /-- A table without an engine. -/
  | noEngine (table : String)
  /-- An insertion into a model that is only read. -/
  | insertReadOnly (table : String)
  /-- An insertion of nothing. -/
  | emptyInsert
  /-- An insertion of a record of another model. -/
  | foreignRecord (found expected : String)
  /-- Records asked of a query that selects expressions. -/
  | aggregated
  /-- A write through a connection that only reads. -/
  | readOnlyDatabase (database operation : String)
  /-- A batch without room for records. -/
  | emptyBatch
  /-- A refusal in the words of the caller. -/
  | stated (message : String)

/-- A name in a message. -/
def ticked (name : String) : String :=
  s!"\x60{name}\x60"

/-- The message of a refusal. -/
def Fault.message : Fault → String
  | emptyTable => "model table name must not be empty"
  | noFields t => s!"model {ticked t} has no fields"
  | duplicateField t f => s!"model {ticked t} declares field {ticked f} twice"
  | duplicateColumn t c => s!"model {ticked t} maps two fields to column {ticked c}"
  | emptyField => "field names must not be empty"
  | emptyColumn f => s!"field {ticked f} has an empty db_column"
  | emptyCompression f => s!"field {ticked f} has an empty codec"
  | severalSources f =>
    s!"field {ticked f}: only one of default, alias and materialized can be given"
  | fieldType f fault => s!"field {ticked f}: Build error: {fault.message}"
  | fieldValue f error => s!"field {ticked f}: {error.message}"
  | noSuchField t f => s!"model {ticked t} has no field {ticked f}"
  | noSortKey => "MergeTree engines need an ORDER BY key"
  | incompleteReplica => "both replica table path and replica name must be given"
  | noUnderlyingTable => "Distributed engine needs an underlying table"
  | emptySelection => "only() needs at least one field"
  | emptyAggregation => "aggregate() needs at least one expression"
  | emptyAlias => "aggregate alias must not be empty"
  | duplicateAlias a => s!"aggregate alias {ticked a} used twice"
  | emptyJoin => "join needs at least one USING column"
  | joinColumn c l r => s!"join column {ticked c} must exist in both {ticked l} and {ticked r}"
  | reversedSlice start stop => s!"slice end {stop.toNat} is before start {start.toNat}"
  | notMergeable t =>
    "FINAL needs a collapsing, summing or replacing MergeTree engine; "
      ++ s!"{ticked t} has none"
  | emptyPage => "page_size must be positive"
  | pageZero => "page numbers start at 1"
  | pageRange page last => s!"page {page.toNat} is out of range (1..={last.toNat})"
  | deleteReadOnly t => s!"cannot delete from read-only model {ticked t}"
  | deleteShape =>
    "delete() only supports filtered querysets (no limits, grouping, aggregation or joins)"
  | noEngine t => s!"model {ticked t} has no engine; cannot create its table"
  | insertReadOnly t => s!"cannot insert into read-only model {ticked t}"
  | emptyInsert => "insert needs at least one instance"
  | foreignRecord found expected =>
    s!"cannot insert a {ticked found} instance into {ticked expected}"
  | aggregated => "aggregated querysets return rows, not model instances; use rows()"
  | readOnlyDatabase d operation => s!"database {ticked d} is read-only; {operation} refused"
  | emptyBatch => "batch size must be positive"
  | stated m => m

end ColumnStore
