import ColumnStore.ColumnType.Basic
import ColumnStore.Text.Alphanumeric
import ColumnStore.Text.Reader

/-!
# Reading Type Names

The names that the header of a result announces. Blanks are allowed inside the
brackets of a name and around its commas, and around the name as a whole; older
spellings of some types are read as the type they mean.

A name with an argument that is not understood is not understood as a whole.
Where that must not stop a reader, the type is taken to be text.

## Main definitions

* `ColumnType.reader`: A type name at the start of a text.
* `ColumnType.read`: The type that a whole text names.
* `ColumnType.readLenient`: The same, with text for what is not understood.
* `TypeNameError`: Why a text is refused.
-/

namespace ColumnStore

/-- Why a text is not the name of a type. -/
inductive TypeNameError
  /-- No type name stands at its start. -/
  | unsupported (text : String)
  /-- Something follows the type name. -/
  | trailing (text rest : String)
  deriving DecidableEq

/-- The message of a refusal. -/
def TypeNameError.message : TypeNameError → String
  | unsupported text => s!"unsupported type name '{text}'"
  | trailing text rest => s!"unexpected input after type name '{text}': '{rest}'"

namespace ColumnType

open Text (Reader)

/-- The characters of the name of a type or of an element. -/
def isNameChar (c : Char) : Bool :=
  Text.isAlphanumeric c || c = '_'

/-- The name of a type or of an element. -/
def nameReader : Reader (List Char) :=
  Reader.while1 isNameChar

/-- An integer between bounds, without a plus sign. -/
def integerReader (lo hi : Int) : Reader Int := fun s => do
  let (below, r) := match s with
    | '-' :: r => (true, r)
    | r => (false, r)
  let (ds, r) ← Reader.while1 Char.isDigit r
  let n : Int := if below then -(Number.ofDigits ds : Int) else Number.ofDigits ds
  if below && lo = 0 then none
  else if lo ≤ n && n ≤ hi then pure (n, r)
  else none

/-- A number of eight binary digits. -/
def byteReader : Reader UInt8 := fun s =>
  (integerReader 0 255 s).map fun (n, r) => (UInt8.ofNat n.toNat, r)

/-- A text in quotes. -/
def quotedReader : Reader String := fun s =>
  (Text.readQuoted s).map fun (body, r) => (String.ofList body, r)

/-- A word followed by arguments in round brackets. -/
def appliedReader {α : Type} (head : String) (arguments : Reader α) : Reader α := fun s => do
  let (_, r) ← Reader.exactly head.toList s
  Reader.enclosed '(' ')' arguments r

/-- A comma among blanks. -/
def comma : Reader Unit :=
  Reader.mark ','

/-- A member of an enumeration. -/
def memberReader : Reader (String × Int16) := fun s => do
  let ((name, n), r) ←
    Reader.pairOf quotedReader (Reader.mark '=') (integerReader (-32768) 32767) s
  pure ((name, Int16.ofInt n), r)

/-- An enumeration of one size. -/
def enumReader (head : String) (size : EnumSize) : Reader ColumnType := fun s =>
  (appliedReader head (Reader.separated1 comma memberReader) s).map
    fun (members, r) => (enum size members, r)

/-- A decimal whose number of digits the head implies. -/
def sizedDecimalReader (head : String) (precision : UInt8) : Reader ColumnType := fun s =>
  (appliedReader head byteReader s).map fun (scale, r) => (decimal precision scale, r)

/-- A decimal with its number of digits. -/
def decimalReader : Reader ColumnType := fun s =>
  (appliedReader "Decimal" (Reader.pairOf byteReader comma byteReader) s).map
    fun ((p, scale), r) => (decimal p scale, r)

/-- The time zone after other arguments, if there is one. -/
def zoneReader : Reader (Option String) :=
  Reader.optional fun s => do
    let (_, r) ← comma s
    quotedReader r

/-- A point in time with decimal places. -/
def dateTime64Reader : Reader ColumnType := fun s =>
  (appliedReader "DateTime64" (fun s => do
    let (p, r) ← byteReader s
    let (zone, r) ← zoneReader r
    pure ((p, zone), r)) s).map fun ((p, zone), r) => (dateTime64 p zone, r)

/-- A point in time with a time zone. -/
def zonedDateTimeReader : Reader ColumnType := fun s =>
  (appliedReader "DateTime" quotedReader s).map fun (zone, r) => (dateTime (some zone), r)

/-- A text of a number of bytes. -/
def fixedStringReader : Reader ColumnType := fun s =>
  (appliedReader "FixedString" (integerReader 0 0xFFFFFFFFFFFFFFFF) s).map
    fun (n, r) => (fixedString (UInt64.ofNat n.toNat), r)

/-- The type that a name without arguments means. The type of a column of
    nothing but absent content has a name of its own and is read as text. -/
def simple? (name : String) : Option ColumnType :=
  match name with
  | "String" => some string
  | "Date" => some date
  | "Date32" => some date
  | "DateTime" => some (dateTime none)
  | "Int8" => some (word ⟨true, .w8⟩)
  | "Int16" => some (word ⟨true, .w16⟩)
  | "Int32" => some (word ⟨true, .w32⟩)
  | "Int64" => some (word ⟨true, .w64⟩)
  | "UInt8" => some (word ⟨false, .w8⟩)
  | "UInt16" => some (word ⟨false, .w16⟩)
  | "UInt32" => some (word ⟨false, .w32⟩)
  | "UInt64" => some (word ⟨false, .w64⟩)
  | "Float32" => some float32
  | "Float64" => some float64
  | "Bool" => some bool
  | "Boolean" => some bool
  | "UUID" => some uuid
  | "IPv4" => some ipv4
  | "IPv6" => some ipv6
  | "JSON" => some json
  | "Nothing" => some string
  | _ => none

/-- A name without arguments, and blanks after it. -/
def simpleReader : Reader ColumnType := fun s => do
  let (name, r) ← nameReader s
  let t ← simple? (String.ofList name)
  pure (t, Text.skipBlanks r)

/-- An element of a tuple: a type after a name, or a type alone. -/
def elementReader (type : Reader ColumnType) : Reader (Option String × ColumnType) := fun s =>
  (do
    let (name, r) ← nameReader s
    let (_, r) ← Reader.while1 Text.isBlank r
    let (t, r) ← type r
    pure ((some (String.ofList name), t), r))
  <|> (type s).map fun (t, r) => ((none, t), r)

/-- A type whose brackets nest less than `depth` deep. The alternatives are
    tried in this order; none of them succeeds at the start of the name that
    another one means. -/
def readerTo : Nat → Reader ColumnType
  | 0 => fun _ => none
  | depth + 1 => fun s =>
    (appliedReader "Nullable" (readerTo depth) s).map (fun (t, r) => (nullable t, r))
      <|> (appliedReader "LowCardinality" (readerTo depth) s).map
        (fun (t, r) => (lowCardinality t, r))
      <|> (appliedReader "Array" (readerTo depth) s).map (fun (t, r) => (array t, r))
      <|> (appliedReader "Map" (Reader.pairOf (readerTo depth) comma (readerTo depth)) s).map
        (fun ((k, v), r) => (map k v, r))
      <|> (appliedReader "Tuple" (Reader.separated1 comma (elementReader (readerTo depth))) s).map
        (fun (ts, r) => (tuple ts, r))
      <|> enumReader "Enum8" .byte s
      <|> enumReader "Enum16" .short s
      <|> sizedDecimalReader "Decimal32" 9 s
      <|> sizedDecimalReader "Decimal64" 18 s
      <|> sizedDecimalReader "Decimal128" 38 s
      <|> decimalReader s
      <|> dateTime64Reader s
      <|> zonedDateTimeReader s
      <|> fixedStringReader s
      <|> simpleReader s

/-- A type name at the start of a text. Every level of nesting takes a bracket,
    so the length of the text bounds the depth. -/
def reader : Reader ColumnType := fun s =>
  readerTo (s.length + 1) s

/-- The type that a whole text names, blanks at its ends aside. -/
def read (s : List Char) : Except TypeNameError ColumnType :=
  match Reader.spaced reader s with
  | some (t, []) => .ok t
  | some (_, c :: r) => .error (.trailing (String.ofList s) (String.ofList (c :: r)))
  | none => .error (.unsupported (String.ofList s))

/-- The type that a text names, or text if it is not understood. -/
def readLenient (s : List Char) : ColumnType :=
  match read s with
  | .ok t => t
  | .error _ => string

end ColumnType

end ColumnStore
