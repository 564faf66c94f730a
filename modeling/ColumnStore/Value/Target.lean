import ColumnStore.Value.Basic

/-!
# Conversion of Values

What a program that reads a cell can ask for. A value is converted if nothing
is lost by it: integers to every range that holds them, to floating point and
to decimals, names of an enumeration to texts. Integers count as truth values.
Nothing is converted to text.

## Main definitions

* `Target`: A kind of content that can be asked for.
* `Value.to?`: A value converted to a target.
-/

namespace ColumnStore

/-- A kind of content that can be asked for. -/
inductive Target
  /-- Any value, as it is. -/
  | value
  /-- A text. -/
  | string
  /-- A truth value. -/
  | bool
  /-- An integer of a range. -/
  | word (w : WordType)
  /-- A floating-point number. -/
  | float
  /-- A decimal. -/
  | decimal
  /-- A day. -/
  | date
  /-- A point in time. -/
  | dateTime
  /-- A unique identifier. -/
  | uuid
  /-- An internet address of four bytes. -/
  | ipv4
  /-- An internet address of sixteen bytes. -/
  | ipv6
  /-- A JSON document. -/
  | json
  /-- The same, or no content. -/
  | optional (t : Target)
  /-- Any number of the same. -/
  | list (t : Target)
  deriving DecidableEq

namespace Value

/-- A value as a truth value. -/
def toBool? : Value → Option Bool
  | bool b => some b
  | int n => some (n ≠ 0)
  | uint n => some (n ≠ 0)
  | _ => none

/-- A value converted to a target, if it can be. -/
def to? (v : Value) : Target → Option Value
  | .value => some v
  | .string => match v with
    | string s => some (string s)
    | enum name => some (string name)
    | _ => none
  | .bool => v.toBool?.map bool
  | .word w => (v.toInt?.filter w.holds).map (ofWord w)
  | .float => match v with
    | float x => some (float x)
    | v => v.toInt?.map fun n => float (Binary64.ofInt n)
  | .decimal => match v with
    | decimal d => some (decimal d)
    | int n => some (decimal (Decimal.ofInt64 n))
    | uint n => some (decimal (Decimal.ofUInt64 n))
    | _ => none
  | .date => match v with
    | date d => some (date d)
    | _ => none
  | .dateTime => match v with
    | dateTime t => some (dateTime t)
    | _ => none
  | .uuid => match v with
    | uuid u => some (uuid u)
    | _ => none
  | .ipv4 => match v with
    | ipv4 a => some (ipv4 a)
    | _ => none
  | .ipv6 => match v with
    | ipv6 a => some (ipv6 a)
    | _ => none
  | .json => match v with
    | json j => some (json j)
    | _ => none
  | .optional t => match v with
    | null => some null
    | v => to? v t
  | .list t => match v with
    | array items => (items.mapM fun x => to? x t).map array
    | _ => none

end Value

end ColumnStore
