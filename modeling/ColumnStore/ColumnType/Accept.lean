import ColumnStore.CodecError
import ColumnStore.Decimal.OfBinary
import ColumnStore.Json.Reader

/-!
# Accepting Values

A type accepts the values of its own kind that are within its range, and turns
some values of other kinds into values of its own: integers of either kind into
each other, into decimals and floating-point numbers; days into points in time
and back; numbers and texts into members of an enumeration; texts into unique
identifiers and JSON documents. A refusal names its cause.

Wrappers do not change what is accepted, except for the absence of content. A
message about a wrapped type names the wrappers that only say how a column is
stored, which is why the type that messages name is passed along.

## Main definitions

* `ColumnType.acceptDecimal`: Rounding to the places of a type and the check of
  its digits.
* `ColumnType.accept`: The value that a type makes of a value.
-/

namespace ColumnStore

namespace ColumnType

/-- A day within the range of a column of days. -/
def acceptDate (d : Date) : Except CodecError Value :=
  if d.before CodecError.minDate || CodecError.maxDate.before d then .error (.dateRange d)
  else .ok (.date d)

/-- An integer within a range. -/
def acceptWord (w : WordType) (n : Int) : Except CodecError Value :=
  if w.holds n then .ok (Value.ofWord w n) else .error (.wordRange w n)

/-- A decimal rounded to the places of a type, if it has no more digits before
    the point than the type. The digits are counted by comparing with a power of
    ten. From the twenty-ninth power on there is no such decimal, but none is as
    large either, so types with room for as many digits are not checked. -/
def acceptDecimal (precision scale : UInt8) (d : Decimal) : Except CodecError Value :=
  let rounded := d.round scale.toNat
  let digits := precision.toNat - scale.toNat
  if digits < 29 && rounded.atLeast digits then .error (.decimalRange precision scale d)
  else .ok (.decimal (rounded.rescale scale.toNat))

/-- The member of a value, compared as words of 64 binary digits. -/
def memberOfValue? (members : List (String × Int16)) (n : Int64) : Option String :=
  (members.find? fun m => m.2.toInt64 = n).map (·.1)

/-- The member with a name. -/
def memberNamed? (members : List (String × Int16)) (name : String) : Option String :=
  (members.find? fun m => m.1 = name).map (·.1)

/-- The decimal that a value is, for a column of decimals. -/
def toDecimal (outer : ColumnType) : Value → Except CodecError Decimal
  | .decimal d => .ok d
  | .int n => .ok (Decimal.ofInt64 n)
  | .uint n => .ok (Decimal.ofUInt64 n)
  | .float x =>
    match Decimal.ofBinary64? x with
    | some d => .ok d
    | none => .error (.notDecimal x)
  | v => .error (.mismatch v outer)

/-- The member that a value is, for a column of an enumeration. -/
def toMember (outer : ColumnType) (members : List (String × Int16)) (v : Value) :
    Except CodecError Value := do
  let found ← match v with
    | .enum name => .ok (memberNamed? members name)
    | .string name => .ok (memberNamed? members name)
    | .int n => .ok (memberOfValue? members n)
    | .uint n => .ok (memberOfValue? members n.toInt64)
    | v => .error (.mismatch v outer)
  match found with
  | some name => .ok (.enum name)
  | none => .error (.notMember outer v)

/-- A point in time for a column of points in time. -/
def acceptInstant (outer : ColumnType) : Value → Except CodecError Value
  | .dateTime t => if t.seconds < 0 then .error (.beforeEpoch outer) else .ok (.dateTime t)
  | .date d => .ok (.dateTime (Instant.ofDate d))
  | v => .error (.mismatch v outer)

/-- A floating-point number for a column of them. -/
def acceptFloat (outer : ColumnType) : Value → Except CodecError Value
  | .float x => .ok (.float x)
  | .int n => .ok (.float (Binary64.ofInt n.toInt))
  | .uint n => .ok (.float (Binary64.ofInt n.toNat))
  | v => .error (.mismatch v outer)

/-- An integer or a truth value for a column of integers. -/
def acceptInteger (outer : ColumnType) (w : WordType) : Value → Except CodecError Value
  | .int n => acceptWord w n.toInt
  | .uint n => acceptWord w n.toNat
  | .bool b => acceptWord w (if b then 1 else 0)
  | v => .error (.mismatch v outer)

/-- A value for a column of neither composite nor wrapped type. -/
def acceptScalar (outer : ColumnType) : ColumnType → Value → Except CodecError Value
  | string, .string s => .ok (.string s)
  | fixedString n, .string s =>
    if n.toNat < s.utf8ByteSize then .error (.tooLong s.utf8ByteSize n) else .ok (.string s)
  | date, .date d => acceptDate d
  -- A point in time is cut down to its day.
  | date, .dateTime t => acceptDate t.date
  | dateTime _, v => acceptInstant outer v
  | dateTime64 _ _, v => acceptInstant outer v
  | word w, v => acceptInteger outer w v
  | float32, v => acceptFloat outer v
  | float64, v => acceptFloat outer v
  | decimal p s, v => do acceptDecimal p s (← toDecimal outer v)
  | bool, .bool b => .ok (.bool b)
  | bool, .int n => .ok (.bool (n ≠ 0))
  | bool, .uint n => .ok (.bool (n ≠ 0))
  | enum _ members, v => toMember outer members v
  | uuid, .uuid u => .ok (.uuid u)
  | uuid, .string s =>
    match Uuid.read? s.toList with
    | some u => .ok (.uuid u)
    | none => .error .notUuid
  | ipv4, .ipv4 a => .ok (.ipv4 a)
  | ipv4, .uint n =>
    if n.toNat < UInt32.size then .ok (.ipv4 ⟨n.toUInt32⟩) else .error (.notIpv4 n)
  | ipv6, .ipv6 a => .ok (.ipv6 a)
  | ipv6, .ipv4 a => .ok (.ipv6 (Ipv6.ofIpv4 a))
  | json, .json j => .ok (.json j)
  | json, .string s =>
    match Json.read? s.toList with
    | some j => .ok (.json j)
    | none => .error .notJson
  | _, v => .error (.mismatch v outer)

mutual

/-- The value that a type makes of a value, where messages about the type
    itself name `outer`. -/
def acceptAs (outer : ColumnType) : ColumnType → Value → Except CodecError Value
  | lowCardinality t, v => acceptAs outer t v
  | nullable _, .null => .ok .null
  | nullable t, v => acceptAs t t v
  | _, .null => .error (.notNullable outer)
  | array t, .array items => (items.mapM (acceptAs t t)).map .array
  | tuple ts, .tuple items =>
    if ts.length = items.length then (acceptElements ts items).map .tuple
    else .error (.elementCount outer ts.length items.length)
  | map k v, .map entries =>
    (entries.mapM fun (x, y) => do pure (← acceptAs k k x, ← acceptAs v v y)).map .map
  | t, v => acceptScalar outer t v

/-- The values that the elements of a tuple make of values. -/
def acceptElements :
    List (Option String × ColumnType) → List Value → Except CodecError (List Value)
  | (_, t) :: ts, v :: vs => do pure ((← acceptAs t t v) :: (← acceptElements ts vs))
  | _, _ => .ok []

end

/-- The value that a type makes of a value. -/
def accept (t : ColumnType) (v : Value) : Except CodecError Value :=
  acceptAs t t v

end ColumnType

end ColumnStore
