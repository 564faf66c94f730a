import ColumnStore.ColumnType.Basic

/-!
# Well-Formed Types

Which types a table can have. A decimal has a number of digits within limits,
an enumeration has members and its values fit their size, and the names of the
elements of a tuple differ. Wrappers do not enclose every type: what is stored
once for each value cannot be an array, and absence of content cannot be added
to a composite type.

## Main definitions

* `TypeFault`: What is wrong with a type.
* `ColumnType.check`: The first fault of a type, going from the outside in.
-/

namespace ColumnStore

/-- What is wrong with a type. -/
inductive TypeFault
  /-- A decimal without digits or with too many. -/
  | decimalPrecision
  /-- A decimal with more places than digits. -/
  | decimalScale
  /-- An enumeration without members. -/
  | noMembers
  /-- A value of an enumeration that does not fit its size. -/
  | memberValue
  /-- Storage by value around the same or around an array. -/
  | lowCardinality
  /-- Absence of content added to a composite type. -/
  | nullable
  /-- Two elements of a tuple with one name. -/
  | duplicateElement (name : String)
  deriving DecidableEq

/-- The message of a fault. -/
def TypeFault.message : TypeFault → String
  | decimalPrecision => "Decimal precision must be between 1 and 38"
  | decimalScale => "Decimal scale must be between 0 and the precision"
  | noMembers => "Enum types need at least one member"
  | memberValue => "Enum8 values must fit in Int8"
  | lowCardinality =>
    "LowCardinality cannot wrap LowCardinality or Array; use Array(LowCardinality(T))"
  | nullable => "Nullable cannot wrap composite types"
  | duplicateElement name => s!"duplicate tuple element name \x60{name}\x60"

namespace ColumnType

/-- Whether the value of a member fits the smaller size. -/
def fitsByte (n : Int16) : Bool :=
  -128 ≤ n.toInt && n.toInt ≤ 127

mutual

/-- Refuses a type that no table can have. -/
def check : ColumnType → Except TypeFault Unit
  | decimal p s =>
    if !(1 ≤ p && p ≤ 38) then .error .decimalPrecision
    else if p < s then .error .decimalScale
    else .ok ()
  | enum size members =>
    if members.isEmpty then .error .noMembers
    else if size = .byte && members.any (fun m => !fitsByte m.2) then .error .memberValue
    else .ok ()
  | lowCardinality (lowCardinality _) => .error .lowCardinality
  | lowCardinality (array _) => .error .lowCardinality
  | lowCardinality t => check t
  | nullable (array _) => .error .nullable
  | nullable (map _ _) => .error .nullable
  | nullable (tuple _) => .error .nullable
  | nullable t => check t
  | array t => check t
  | tuple ts => checkElements [] ts
  | map k v => do
    check k
    check v
  | _ => .ok ()

/-- Refuses the elements of a tuple, given the names of those before them. -/
def checkElements (seen : List String) :
    List (Option String × ColumnType) → Except TypeFault Unit
  | [] => .ok ()
  | (none, t) :: ts => do
    check t
    checkElements seen ts
  | (some n, t) :: ts => do
    if seen.contains n then .error (.duplicateElement n)
    check t
    checkElements (n :: seen) ts

end

end ColumnType

end ColumnStore
