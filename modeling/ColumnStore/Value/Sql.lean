import ColumnStore.Json.Printer
import ColumnStore.Number.Real
import ColumnStore.Text.Escape
import ColumnStore.Value.Basic

/-!
# Values in Statements

How a value is written as a literal in a statement when the type of its column
is not known. Numbers and truth values stand as they are, everything else that
is not composite stands in quotes. A tuple of one item is written with the name
of its constructor, because brackets around one item only group; a map is
written as a call with keys and values in turn.

## Main definitions

* `Value.sql`: The literal of a value.
* `commaSeparated`: Texts with commas and blanks between them.
-/

namespace ColumnStore

/-- Texts with a comma and a blank between neighbours. -/
def commaSeparated (texts : List (List Char)) : List Char :=
  [',', ' '].intercalate texts

theorem commaSeparated_cons_cons (x y : List Char) (r : List (List Char)) :
    commaSeparated (x :: y :: r) = x ++ ',' :: ' ' :: commaSeparated (y :: r) := by
  simp [commaSeparated, List.intercalate]

/-- The literal of an array, from those of its items. -/
def arrayLiteral (items : List (List Char)) : List Char :=
  '[' :: (commaSeparated items ++ [']'])

/-- The literal of a tuple, from those of its items. -/
def tupleLiteral (items : List (List Char)) : List Char :=
  let bracketed := '(' :: (commaSeparated items ++ [')'])
  if items.length = 1 then "tuple".toList ++ bracketed else bracketed

/-- The literal of a map, from those of its keys and values in turn. -/
def mapLiteral (items : List (List Char)) : List Char :=
  "map(".toList ++ commaSeparated items ++ [')']

namespace Value

mutual

/-- The literal of a value. -/
def sql : Value → List Char
  | null => "NULL".toList
  | bool true => "true".toList
  | bool false => "false".toList
  | int n => Number.signed n.toInt
  | uint n => Number.digits n.toNat
  | float x => x.sql
  | decimal d => d.text
  | string s => Text.quote s.toList
  | date d => Text.quote d.text
  | dateTime t => Text.quote t.text
  | uuid u => Text.quote u.text
  | ipv4 a => Text.quote a.text
  | ipv6 a => Text.quote a.text
  | enum name => Text.quote name.toList
  | array items => arrayLiteral (listSql items)
  | tuple items => tupleLiteral (listSql items)
  | map entries => mapLiteral (entriesSql entries)
  | json j => Text.quote j.text

/-- The literals of a list of values. -/
def listSql : List Value → List (List Char)
  | [] => []
  | x :: xs => sql x :: listSql xs

/-- The literals of keys and values in turn. -/
def entriesSql : List (Value × Value) → List (List Char)
  | [] => []
  | (k, x) :: xs => sql k :: sql x :: entriesSql xs

end

end Value

end ColumnStore
