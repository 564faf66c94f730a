import ColumnStore.ColumnType.Accept

/-!
# Writing Values of a Type

The literal of a value in a column of known type. The value is accepted first.
Points in time are written with the number of decimal places of the type; all
else is written as in a statement that does not know the type.

## Main definitions

* `ColumnType.sqlOf`: The literal of a value that the type has accepted.
* `ColumnType.encode`: The literal of a value, if the type accepts it.
-/

namespace ColumnStore

namespace ColumnType

mutual

/-- The literal of a value that the type has accepted. -/
def sqlOf : ColumnType → Value → List Char
  | lowCardinality t, v => sqlOf t v
  | nullable _, .null => Value.null.sql
  | nullable t, v => sqlOf t v
  | dateTime _, .dateTime t => Text.quote (t.fixed 0)
  | dateTime64 p _, .dateTime t => Text.quote (t.fixed p.toNat)
  | array t, .array items => arrayLiteral (items.map (sqlOf t))
  | tuple ts, .tuple items => tupleLiteral (elementsSql ts items)
  | map k v, .map entries => mapLiteral (entries.flatMap fun (x, y) => [sqlOf k x, sqlOf v y])
  | _, v => v.sql

/-- The literals of the elements of a tuple. -/
def elementsSql : List (Option String × ColumnType) → List Value → List (List Char)
  | (_, t) :: ts, v :: vs => sqlOf t v :: elementsSql ts vs
  | _, _ => []

end

/-- The literal of a value, if the type accepts it. -/
def encode (t : ColumnType) (v : Value) : Except CodecError (List Char) :=
  (t.accept v).map t.sqlOf

end ColumnType

end ColumnStore
