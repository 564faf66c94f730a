import ColumnStore.ColumnType.Decode
import ColumnStore.ColumnType.Encode
import ColumnStore.Expr.Sql
import ColumnStore.Failure

/-!
# Fields

A field of a model: the column in which it is stored, the type of that column,
and where its values come from if a writer gives none.

The values of a field have at most one of three sources. A default stands for a
missing value, an alias is computed whenever the field is read, and a
materialized field is computed when a row is written. Computed fields are never
written, nor are those that are marked as such.

## Main definitions

* `Field`: A field.
* `Field.check`: The first fault of a field.
* `Field.accept`, `Field.encode`, `Field.decode`: The conversions of its type,
  with refusals that name the field.
* `Field.sql`: The definition of its column.
-/

namespace ColumnStore

/-- What stands for a missing value. -/
inductive ColumnDefault
  /-- A constant. -/
  | value (v : Value)
  /-- An expression that the server computes. -/
  | expr (e : Expr)

/-- A field of a model. -/
structure Field where
  /-- The name by which expressions and records know the field. -/
  name : String
  /-- The type of its column. -/
  type : ColumnType
  /-- What stands for a missing value. -/
  fallback : Option ColumnDefault := none
  /-- The expression that is computed on reading. -/
  aliased : Option Expr := none
  /-- The expression that is computed on writing. -/
  materialized : Option Expr := none
  /-- How the column is compressed. -/
  compression : Option String := none
  /-- The name of the column, if it is not that of the field. -/
  stored : Option String := none
  /-- Whether the field is marked as never written. -/
  readMark : Bool := false

namespace Field

/-- The name of the column. -/
def column (f : Field) : String :=
  f.stored.getD f.name

/-- Whether the field is never written. -/
def readonly (f : Field) : Bool :=
  f.readMark || f.aliased.isSome || f.materialized.isSome

/-- The value that the type of a field makes of a value. -/
def accept (f : Field) (v : Value) : Except Fault Value :=
  (f.type.accept v).mapError (.fieldValue f.name)

/-- The literal of a value of a field. -/
def encode (f : Field) (v : Value) : Except Fault (List Char) :=
  (f.type.encode v).mapError (.fieldValue f.name)

/-- The value of a cell of the column of a field. -/
def decode (f : Field) (cell : Option (List Char)) : Except Failure Value :=
  (f.type.decodeCell cell).mapError fun e => .ofCell f.column cell (.cell e)

/-- The value of a field of which nothing is known. -/
def default (f : Field) : Value :=
  match f.fallback with
  | some (.value v) => v
  | _ => f.type.default

/-- The number of sources of the values of a field. -/
def sources (f : Field) : Nat :=
  [f.fallback.isSome, f.aliased.isSome, f.materialized.isSome].count true

/-- Refuses a field that no model can have. -/
def check (f : Field) : Except Fault Unit := do
  if f.name = "" then throw .emptyField
  if f.stored = some "" then throw (.emptyColumn f.name)
  if f.compression = some "" then throw (.emptyCompression f.name)
  if 1 < f.sources then throw (.severalSources f.name)
  f.type.check.mapError (.fieldType f.name)
  if let some (.value v) := f.fallback then
    discard (f.encode v)

/-- How the source of the values of a field is written. -/
def sourceSql (f : Field) : Except Fault (List Char) :=
  match f.aliased, f.materialized, f.fallback with
  | some e, _, _ => .ok (" ALIAS ".toList ++ e.sql)
  | none, some e, _ => .ok (" MATERIALIZED ".toList ++ e.sql)
  | none, none, some (.value v) => (f.encode v).map (" DEFAULT ".toList ++ ·)
  | none, none, some (.expr e) => .ok (" DEFAULT ".toList ++ e.sql)
  | none, none, none => .ok []

/-- How the compression of a field is written. Nothing is stored of a field
    that is computed on reading. -/
def compressionSql (f : Field) : List Char :=
  match f.compression, f.aliased with
  | some c, none => " CODEC(".toList ++ c.toList ++ [')']
  | _, _ => []

/-- The definition of the column of a field, without its name. -/
def sql (f : Field) : Except Fault (List Char) := do
  pure (f.type.name ++ (← f.sourceSql) ++ f.compressionSql)

/-- Equality of optional things, given one of the things. -/
def optionAgrees {α : Type} (agrees : α → α → Bool) : Option α → Option α → Bool
  | some x, some y => agrees x y
  | none, none => true
  | _, _ => false

/-- Equality of what stands for a missing value. -/
def fallbackAgrees : ColumnDefault → ColumnDefault → Bool
  | .value v, .value w => v.same w
  | .expr e, .expr e' => e.same e'
  | _, _ => false

/-- Whether two fields are defined alike. -/
def same (f g : Field) : Bool :=
  f.name = g.name && f.type == g.type && optionAgrees fallbackAgrees f.fallback g.fallback
    && optionAgrees Expr.same f.aliased g.aliased
    && optionAgrees Expr.same f.materialized g.materialized
    && f.compression = g.compression && f.stored = g.stored && f.readMark = g.readMark

end Field

end ColumnStore
