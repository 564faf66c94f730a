import ColumnStore.Number.Whole
import ColumnStore.Number.Word
import ColumnStore.Text.Escape
import ColumnStore.Value.Sql

/-!
# Column Types

The types that a column of a table can have, and their names.

The name of a type is how a statement spells it and how the header of a result
announces it. Names of enumeration members and of time zones are written as
quoted strings; the name of an element of a tuple stands as it is.

## Main definitions

* `ColumnType`: The type of a column.
* `ColumnType.same`: Whether two types are the same.
* `ColumnType.name`: The name of a type.
* `ColumnType.stripped`: A type without the wrappers that only say how a column
  is stored.
* `ColumnType.default`: The value of a column that was never given one.
-/

namespace ColumnStore

/-- The two sizes of enumerations. -/
inductive EnumSize
  /-- Members have values of eight binary digits. -/
  | byte
  /-- Members have values of sixteen binary digits. -/
  | short
  deriving DecidableEq

/-- The type of a column. -/
inductive ColumnType
  /-- Texts. -/
  | string
  /-- Texts of a number of bytes. -/
  | fixedString (length : UInt64)
  /-- Days. -/
  | date
  /-- Points in time in full seconds. -/
  | dateTime (zone : Option String)
  /-- Points in time with decimal places. -/
  | dateTime64 (precision : UInt8) (zone : Option String)
  /-- Integers of a range. -/
  | word (w : WordType)
  /-- Floating-point numbers in single precision. -/
  | float32
  /-- Floating-point numbers in double precision. -/
  | float64
  /-- Decimals with a number of digits, so many of them after the point. -/
  | decimal (precision scale : UInt8)
  /-- Truth values. -/
  | bool
  /-- Named numbers. -/
  | enum (size : EnumSize) (members : List (String × Int16))
  /-- Any number of items of one type. -/
  | array (item : ColumnType)
  /-- A fixed number of elements, each of its own type and perhaps with a
      name. -/
  | tuple (elements : List (Option String × ColumnType))
  /-- Keys and their values. -/
  | map (key value : ColumnType)
  /-- A type with the absence of content added. -/
  | nullable (inner : ColumnType)
  /-- A type whose values are stored once each. -/
  | lowCardinality (inner : ColumnType)
  /-- Unique identifiers. -/
  | uuid
  /-- Internet addresses of four bytes. -/
  | ipv4
  /-- Internet addresses of sixteen bytes. -/
  | ipv6
  /-- JSON documents. -/
  | json

namespace ColumnType

mutual

/-- Whether two types are the same. -/
def same : ColumnType → ColumnType → Bool
  | string, string => true
  | fixedString m, fixedString n => m = n
  | date, date => true
  | dateTime z, dateTime z' => z = z'
  | dateTime64 p z, dateTime64 p' z' => p = p' && z = z'
  | word w, word w' => w = w'
  | float32, float32 => true
  | float64, float64 => true
  | decimal p s, decimal p' s' => p = p' && s = s'
  | bool, bool => true
  | enum size ms, enum size' ms' => size = size' && ms = ms'
  | array t, array t' => same t t'
  | tuple ts, tuple ts' => elementsSame ts ts'
  | map k v, map k' v' => same k k' && same v v'
  | nullable t, nullable t' => same t t'
  | lowCardinality t, lowCardinality t' => same t t'
  | uuid, uuid => true
  | ipv4, ipv4 => true
  | ipv6, ipv6 => true
  | json, json => true
  | _, _ => false

/-- Whether the elements of two tuples are the same. -/
def elementsSame :
    List (Option String × ColumnType) → List (Option String × ColumnType) → Bool
  | [], [] => true
  | (n, t) :: ts, (n', t') :: ts' => n = n' && same t t' && elementsSame ts ts'
  | _, _ => false

end

mutual

theorem same_self : ∀ t : ColumnType, same t t = true
  | string | date | float32 | float64 | bool | uuid | ipv4 | ipv6 | json => rfl
  | fixedString _ | dateTime _ | dateTime64 _ _ | word _ | decimal _ _ | enum _ _ => by
    simp [same]
  | array t => same_self t
  | tuple ts => elementsSame_self ts
  | map k v => by simp [same, same_self k, same_self v]
  | nullable t => same_self t
  | lowCardinality t => same_self t

theorem elementsSame_self : ∀ ts : List (Option String × ColumnType), elementsSame ts ts = true
  | [] => rfl
  | (n, t) :: ts => by simp [elementsSame, same_self t, elementsSame_self ts]

end

mutual

theorem eq_of_same : ∀ (t u : ColumnType), same t u = true → t = u
  | string, u, h | date, u, h | float32, u, h | float64, u, h | bool, u, h | uuid, u, h
  | ipv4, u, h | ipv6, u, h | json, u, h => by
    cases u <;> first | rfl | cases h
  | fixedString _, u, h | dateTime _, u, h | dateTime64 _ _, u, h | word _, u, h
  | decimal _ _, u, h | enum _ _, u, h => by
    cases u <;> simp_all [same]
  | array t, u, h => by
    cases u with
    | array t' => exact congrArg array (eq_of_same t t' h)
    | _ => cases h
  | tuple ts, u, h => by
    cases u with
    | tuple ts' => exact congrArg tuple (eq_of_elementsSame ts ts' h)
    | _ => cases h
  | map k v, u, h => by
    cases u with
    | map k' v' =>
      simp only [same, Bool.and_eq_true] at h
      rw [eq_of_same k k' h.1, eq_of_same v v' h.2]
    | _ => cases h
  | nullable t, u, h => by
    cases u with
    | nullable t' => exact congrArg nullable (eq_of_same t t' h)
    | _ => cases h
  | lowCardinality t, u, h => by
    cases u with
    | lowCardinality t' => exact congrArg lowCardinality (eq_of_same t t' h)
    | _ => cases h

theorem eq_of_elementsSame : ∀ ts us : List (Option String × ColumnType),
    elementsSame ts us = true → ts = us
  | [], us, h => by
    cases us with
    | nil => rfl
    | cons e us => cases h
  | (n, t) :: ts, us, h => by
    cases us with
    | nil => cases h
    | cons e us =>
      simp only [elementsSame, Bool.and_eq_true, decide_eq_true_eq] at h
      rw [h.1.1, eq_of_same t e.2 h.1.2, eq_of_elementsSame ts us h.2]

end

instance : BEq ColumnType := ⟨same⟩

instance : LawfulBEq ColumnType where
  eq_of_beq h := eq_of_same _ _ h
  rfl := same_self _

/-- The name of the type of a range of integers. -/
def wordName (w : WordType) : List Char :=
  (if w.signed then "Int".toList else "UInt".toList) ++ Number.digits w.width.bits

/-- The list of the members of an enumeration. -/
def membersText (members : List (String × Int16)) : List Char :=
  commaSeparated (members.map fun (name, n) =>
    Text.quote name.toList ++ ' ' :: '=' :: ' ' :: Number.signed n.toInt)

/-- The name of a type with arguments. -/
def applied (head : List Char) (arguments : List (List Char)) : List Char :=
  head ++ '(' :: (commaSeparated arguments ++ [')'])

mutual

/-- The name of a type. -/
def name : ColumnType → List Char
  | string => "String".toList
  | fixedString n => applied "FixedString".toList [Number.digits n.toNat]
  | date => "Date".toList
  | dateTime none => "DateTime".toList
  | dateTime (some zone) => applied "DateTime".toList [Text.quote zone.toList]
  | dateTime64 p none => applied "DateTime64".toList [Number.digits p.toNat]
  | dateTime64 p (some zone) =>
    applied "DateTime64".toList [Number.digits p.toNat, Text.quote zone.toList]
  | word w => wordName w
  | float32 => "Float32".toList
  | float64 => "Float64".toList
  | decimal p s => applied "Decimal".toList [Number.digits p.toNat, Number.digits s.toNat]
  | bool => "Bool".toList
  | enum .byte members => applied "Enum8".toList [membersText members]
  | enum .short members => applied "Enum16".toList [membersText members]
  | array t => applied "Array".toList [name t]
  | tuple ts => applied "Tuple".toList (elementNames ts)
  | map k v => applied "Map".toList [name k, name v]
  | nullable t => applied "Nullable".toList [name t]
  | lowCardinality t => applied "LowCardinality".toList [name t]
  | uuid => "UUID".toList
  | ipv4 => "IPv4".toList
  | ipv6 => "IPv6".toList
  | json => "JSON".toList

/-- The names of the elements of a tuple with their types. -/
def elementNames : List (Option String × ColumnType) → List (List Char)
  | [] => []
  | (none, t) :: ts => name t :: elementNames ts
  | (some n, t) :: ts => (n.toList ++ ' ' :: name t) :: elementNames ts

end

/-- The name of a type as a text. -/
def text (t : ColumnType) : String :=
  String.ofList t.name

/-- A type without the wrappers that only say how a column is stored. -/
def stripped : ColumnType → ColumnType
  | lowCardinality t => stripped t
  | t => t

mutual

/-- The value of a column that was never given one. -/
def default : ColumnType → Value
  | string => .string ""
  | fixedString _ => .string ""
  | date => .date Date.epoch
  | dateTime _ => .dateTime Instant.epoch
  | dateTime64 _ _ => .dateTime Instant.epoch
  | word w => Value.ofWord w 0
  | float32 => .float Binary64.zero
  | float64 => .float Binary64.zero
  | decimal _ s => .decimal (Decimal.zero.rescale s.toNat)
  | bool => .bool false
  | enum _ [] => .null
  | enum _ ((name, _) :: _) => .enum name
  | array _ => .array []
  | tuple ts => .tuple (elementDefaults ts)
  | map _ _ => .map []
  | nullable _ => .null
  | lowCardinality t => default t
  | uuid => .uuid Uuid.nil
  | ipv4 => .ipv4 Ipv4.unspecified
  | ipv6 => .ipv6 Ipv6.unspecified
  | json => .json (.object [])

/-- The values of the elements of a tuple that was never given any. -/
def elementDefaults : List (Option String × ColumnType) → List Value
  | [] => []
  | (_, t) :: ts => default t :: elementDefaults ts

end

end ColumnType

end ColumnStore
