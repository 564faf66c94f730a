import ColumnStore.ColumnType.Accept
import ColumnStore.Decimal.Reader
import ColumnStore.Time.Reader

/-!
# Reading Values of a Type

How the cells of a result and the literals of a statement become values.

A scalar is read from its text. A composite value is read from the literal that
its text is, item by item. Where the notation gives a scalar in place of a
composite value, the content of that scalar is read as a literal in turn, so a
composite value may be quoted as a whole.

A bare word is its own content. A program that reads it in place of a composite
value one step after the other goes round and never ends. The functions here are
total where such a program is not: they take all quotes off first, each of which
makes the text shorter, and refuse the word that is left. The single steps, with
those that never end, are what `Task` and `Stage` describe.

Absent content is a cell without text or the literal for it, never a text, and
only a type to which it was added has it.

## Main definitions

* `Literal.unquote`: The literal inside any number of quotes.
* `ColumnType.decodeScalar`: A value of neither composite nor wrapped type.
* `ColumnType.decodeLiteral`, `ColumnType.decodeText`, `ColumnType.decodeCell`:
  A value from a literal, a text or a cell.
-/

namespace ColumnStore

/-- The literal of a text. While that is a scalar, and shorter than the text,
    the content of the scalar is read in turn. -/
def Literal.unquote (s : List Char) : Except LiteralError Literal :=
  match Literal.read s with
  | .ok (.scalar t) =>
    if t.toList.length < s.length then Literal.unquote t.toList else .ok (.scalar t)
  | r => r
termination_by s.length

namespace ColumnType

/-- A result, or the refusal of a text by a type. -/
def orUnreadable (t : ColumnType) (s : List Char) : Option Value → Except CodecError Value
  | some v => .ok v
  | none => .error (.unreadable t (String.ofList s))

/-- An integer from its text. -/
def decodeWord (w : WordType) (s : List Char) : Except CodecError Value :=
  match Number.integerBetween? (-0x80000000000000000000000000000000)
      0x7FFFFFFFFFFFFFFFFFFFFFFFFFFFFFFF (Text.trim s) with
  | some n => acceptWord w n
  | none => .error (.unreadable (word w) (String.ofList s))

/-- A member of an enumeration from its name or its value. -/
def decodeMember (t : ColumnType) (members : List (String × Int16)) (s : List Char) :
    Except CodecError Value :=
  let byValue := (Number.integerBetween? (-32768) 32767 s).bind fun n =>
    (members.find? fun m => m.2.toInt = n).map (·.1)
  match memberNamed? members (String.ofList s) <|> byValue with
  | some name => .ok (.enum name)
  | none => .error (.unknownMember t (String.ofList s))

/-- A value of neither composite nor wrapped type from its text. -/
def decodeScalar (t : ColumnType) (s : List Char) : Except CodecError Value :=
  match t with
  -- White space around numbers and points in time is dropped here.
  | string => .ok (.string (String.ofList s))
  | fixedString _ => .ok (.string (String.ofList (Text.dropWhileRight (· = '\x00') s)))
  | date => orUnreadable date s ((Date.read? s).map .date)
  | dateTime _ => decodeInstant (Text.trim s)
  | dateTime64 _ _ => decodeInstant (Text.trim s)
  | word w => decodeWord w s
  | float32 => orUnreadable float32 s ((Binary64.read? (Text.trim s)).map .float)
  | float64 => orUnreadable float64 s ((Binary64.read? (Text.trim s)).map .float)
  | decimal p q =>
    match Decimal.read? (Text.trim s) with
    | some d => acceptDecimal p q d
    | none => .error (.unreadable t (String.ofList s))
  | bool =>
    if s = "true".toList || s = ['1'] then .ok (.bool true)
    else if s = "false".toList || s = ['0'] then .ok (.bool false)
    else .error (.unreadable bool (String.ofList s))
  | enum _ members => decodeMember t members s
  | uuid =>
    match Uuid.read? s with
    | some u => .ok (.uuid u)
    | none => .error .notUuid
  | ipv4 => orUnreadable ipv4 s ((Ipv4.read? s).map .ipv4)
  | ipv6 => orUnreadable ipv6 s ((Ipv6.read? s).map .ipv6)
  | json =>
    match Json.read? s with
    | some j => .ok (.json j)
    | none => .error .notJson
  | t => .error (.misshapen (.scalar (String.ofList s)) t)
where
  /-- A point in time from its text. -/
  decodeInstant (s : List Char) : Except CodecError Value :=
    orUnreadable (dateTime none) s ((Instant.read? s).map .dateTime)

/-- The literal of a composite value, with the quotes around it taken off, and
    the type that messages about it name: `self` once quotes were taken off. A bare
    word is left as it is, where to take it for a text again would never end. -/
def opened (outer self : ColumnType) : Literal → Except CodecError (ColumnType × Literal)
  | .scalar s =>
    match Literal.unquote s.toList with
    | .ok l => .ok (self, l)
    | .error e => .error (.literal e)
  | l => .ok (outer, l)

/-- The refusal of a literal by a composite type. -/
def refused {α : Type} (outer : ColumnType) : Literal → Except CodecError α
  | .null => .error (.unexpectedNull outer)
  | l => .error (.misshapen l outer)

mutual

/-- A value from a literal, where messages about the type itself name
    `outer`. -/
def decodeAs (outer : ColumnType) : ColumnType → Literal → Except CodecError Value
  | lowCardinality t, l => decodeAs outer t l
  | nullable _, .null => .ok .null
  | nullable t, l => decodeAs t t l
  | array t, l => do
    match ← opened outer (array t) l with
    | (_, .list items) => (items.mapM (decodeAs t t)).map .array
    | (outer, l) => refused outer l
  | tuple ts, l => do
    match ← opened outer (tuple ts) l with
    | (outer, .list items) =>
      if ts.length = items.length then (decodeElements ts items).map .tuple
      else .error (.elementCount outer ts.length items.length)
    | (outer, l) => refused outer l
  | map k v, l => do
    match ← opened outer (map k v) l with
    | (_, .map entries) =>
      (entries.mapM fun (x, y) => do pure (← decodeAs k k x, ← decodeAs v v y)).map .map
    | (outer, l) => refused outer l
  | t, .scalar s => decodeScalar t s.toList
  | _, l => refused outer l

/-- The elements of a tuple from literals. -/
def decodeElements :
    List (Option String × ColumnType) → List Literal → Except CodecError (List Value)
  | (_, t) :: ts, l :: ls => do pure ((← decodeAs t t l) :: (← decodeElements ts ls))
  | _, _ => .ok []

end

/-- A value from a literal. -/
def decodeLiteral (t : ColumnType) (l : Literal) : Except CodecError Value :=
  decodeAs t t l

/-- A value from a text in literal notation. -/
def decodeSql (t : ColumnType) (s : List Char) : Except CodecError Value :=
  match Literal.read s with
  | .ok l => t.decodeLiteral l
  | .error e => .error (.literal e)

/-- A value from the text of a cell, where messages about the type itself name
    `outer`. -/
def decodeTextAs (outer : ColumnType) : ColumnType → List Char → Except CodecError Value
  | lowCardinality t, s => decodeTextAs outer t s
  | nullable t, s => decodeTextAs t t s
  | array _, s => outer.decodeSql s
  | tuple _, s => outer.decodeSql s
  | map _ _, s => outer.decodeSql s
  | t, s => decodeScalar t s

/-- A value from the text of a cell. -/
def decodeText (t : ColumnType) (s : List Char) : Except CodecError Value :=
  decodeTextAs t t s

/-- A value from a cell, which may be absent. -/
def decodeCell (t : ColumnType) : Option (List Char) → Except CodecError Value
  | some s => t.decodeText s
  | none =>
    match t.stripped with
    | nullable _ => .ok .null
    | _ => .error (.unexpectedNull t)

end ColumnType

end ColumnStore
