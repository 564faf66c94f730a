import ColumnStore.Address.Ipv6
import ColumnStore.Decimal.Basic
import ColumnStore.Json.Basic
import ColumnStore.Number.Word
import ColumnStore.Time.Instant

/-!
# Values

The content of a cell of a table, whatever the type of its column.

Two values are the same if they are of one kind and agree part by part.
Decimals agree as numbers, whatever their scales. For floating-point numbers
there are two notions, and the caller chooses: agreement as numbers, where a
value that is not a number agrees with nothing, or sameness, where every number
is itself.

## Main definitions

* `Value`: The content of a cell.
* `Value.kind`: The name of a kind of values.
* `Value.agrees`: Equality of values over a notion for floating-point numbers.
* `Value.equal`: Equality as numbers.
* `Value.same`: Equality under which every value is itself.
-/

namespace ColumnStore

/-- The content of a cell. -/
inductive Value
  /-- No content. -/
  | null
  /-- A truth value. -/
  | bool (b : Bool)
  /-- A signed integer. -/
  | int (n : Int64)
  /-- An unsigned integer. -/
  | uint (n : UInt64)
  /-- A floating-point number. -/
  | float (x : Binary64)
  /-- A decimal. -/
  | decimal (d : Decimal)
  /-- A text. -/
  | string (s : String)
  /-- A day. -/
  | date (d : Date)
  /-- A point in time. -/
  | dateTime (t : Instant)
  /-- A unique identifier. -/
  | uuid (u : Uuid)
  /-- An internet address of four bytes. -/
  | ipv4 (a : Ipv4)
  /-- An internet address of sixteen bytes. -/
  | ipv6 (a : Ipv6)
  /-- A member of an enumeration, by name. -/
  | enum (name : String)
  /-- Any number of values of one type. -/
  | array (items : List Value)
  /-- A fixed number of values. -/
  | tuple (items : List Value)
  /-- Keys and their values, in the order in which they were given. -/
  | map (entries : List (Value × Value))
  /-- A JSON document. -/
  | json (j : Json)

namespace Value

/-- The name of the kind of a value. -/
def kind : Value → String
  | null => "NULL"
  | bool _ => "bool"
  | int _ => "int"
  | uint _ => "uint"
  | float _ => "float"
  | decimal _ => "decimal"
  | string _ => "string"
  | date _ => "date"
  | dateTime _ => "datetime"
  | uuid _ => "uuid"
  | ipv4 _ => "ipv4"
  | ipv6 _ => "ipv6"
  | enum _ => "enum"
  | array _ => "array"
  | tuple _ => "tuple"
  | map _ => "map"
  | json _ => "json"

/-- Whether there is no content. -/
def isNull : Value → Bool
  | null => true
  | _ => false

/-- The value of an integer of a range. -/
def ofWord (w : WordType) (n : Int) : Value :=
  if w.signed then int (Int64.ofInt n) else uint (UInt64.ofNat n.toNat)

/-- The integer that a value is, if it is one. -/
def toInt? : Value → Option Int
  | int n => some n.toInt
  | uint n => some n.toNat
  | _ => none

mutual

/-- Equality of values, given a notion of equality of floating-point numbers. -/
def agrees (eq : Binary64 → Binary64 → Bool) : Value → Value → Bool
  | null, null => true
  | bool a, bool b => a = b
  | int m, int n => m = n
  | uint m, uint n => m = n
  | float x, float y => eq x y
  | decimal a, decimal b => a.agrees b
  | string s, string t => s = t
  | date a, date b => a = b
  | dateTime a, dateTime b => a = b
  | uuid a, uuid b => a = b
  | ipv4 a, ipv4 b => a = b
  | ipv6 a, ipv6 b => a = b
  | enum s, enum t => s = t
  | array xs, array ys => listAgrees eq xs ys
  | tuple xs, tuple ys => listAgrees eq xs ys
  | map xs, map ys => entriesAgree eq xs ys
  | json a, json b => a.agrees b
  | _, _ => false

/-- Equality of lists of values. -/
def listAgrees (eq : Binary64 → Binary64 → Bool) : List Value → List Value → Bool
  | [], [] => true
  | x :: xs, y :: ys => agrees eq x y && listAgrees eq xs ys
  | _, _ => false

/-- Equality of lists of keys with values. -/
def entriesAgree (eq : Binary64 → Binary64 → Bool) :
    List (Value × Value) → List (Value × Value) → Bool
  | [], [] => true
  | (k, x) :: xs, (l, y) :: ys => agrees eq k l && agrees eq x y && entriesAgree eq xs ys
  | _, _ => false

end

/-- Equality as numbers. -/
def equal : Value → Value → Bool :=
  agrees Binary64.agrees

/-- Equality under which every floating-point number is itself. -/
def same : Value → Value → Bool :=
  agrees fun x y => x = y || x.agrees y

end Value

end ColumnStore
