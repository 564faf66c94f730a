import ColumnStore.ColumnType.Basic
import ColumnStore.Literal.Reader

/-!
# Refusals of Values

Why a value is not accepted by a type, or a text is not read as a value of it.
The messages name types as statements do, and show refused texts and literals.

## Main definitions

* `CodecError`: The causes.
* `CodecError.message`: Their messages.
-/

namespace ColumnStore

/-- Why a value or a text is refused by a type. -/
inductive CodecError
  /-- Absent content where there must be some. -/
  | notNullable (type : ColumnType)
  /-- A text with too many bytes. -/
  | tooLong (bytes : Nat) (length : UInt64)
  /-- A day outside the range of the type. -/
  | dateRange (d : Date)
  /-- A point in time before 1970. -/
  | beforeEpoch (type : ColumnType)
  /-- An integer outside a range. -/
  | wordRange (w : WordType) (n : Int)
  /-- A floating-point number that is not a decimal. -/
  | notDecimal (x : Binary64)
  /-- A decimal with too many digits before the point. -/
  | decimalRange (precision scale : UInt8) (d : Decimal)
  /-- A value that names no member of an enumeration. -/
  | notMember (type : ColumnType) (v : Value)
  /-- A tuple of the wrong length. -/
  | elementCount (type : ColumnType) (expected found : Nat)
  /-- A text that is not a unique identifier. -/
  | notUuid
  /-- A number that is not an internet address of four bytes. -/
  | notIpv4 (n : UInt64)
  /-- A text that is not a JSON document. -/
  | notJson
  /-- A value of a kind that the type never accepts. -/
  | mismatch (v : Value) (type : ColumnType)
  /-- Absent content in a result where there must be some. -/
  | unexpectedNull (type : ColumnType)
  /-- A literal that does not have the form of the type. -/
  | misshapen (literal : Literal) (type : ColumnType)
  /-- A text that is not read as a value of the type. -/
  | unreadable (type : ColumnType) (text : String)
  /-- A text that names no member of an enumeration. -/
  | unknownMember (type : ColumnType) (text : String)
  /-- A text that is not a literal. -/
  | literal (e : LiteralError)

namespace CodecError

/-- The first day that a column of days accepts. -/
def minDate : Date := Date.epoch

/-- The last day that a column of days accepts. -/
def maxDate : Date := ⟨2149, 6, 6, by decide⟩

/-- A number, a text or a member name in a form for messages. -/
def shownValue : Value → List Char
  | .int n => "Int(".toList ++ Number.signed n.toInt ++ [')']
  | .uint n => "UInt(".toList ++ Number.digits n.toNat ++ [')']
  | .string s => "String(".toList ++ Text.showQuoted s.toList ++ [')']
  | .enum s => "Enum(".toList ++ Text.showQuoted s.toList ++ [')']
  | v => v.sql

/-- The message of a refusal. -/
def message : CodecError → String
  | notNullable t => s!"{t.text} is not nullable"
  | tooLong bytes n => s!"Value of {bytes} bytes is too long for FixedString({n.toNat})"
  | dateRange d =>
    s!"Date out of range - {shown d.text} is not between {shown minDate.text} and "
      ++ shown maxDate.text
  | beforeEpoch t => s!"{t.text} cannot hold dates before 1970"
  | wordRange w n =>
    s!"{shown (ColumnType.wordName w)} out of range - {n} is not between {w.lower} and {w.upper}"
  | notDecimal x => s!"Non-finite value for Decimal - {shown x.text}"
  | decimalRange p s d => s!"Decimal({p.toNat}, {s.toNat}) out of range - {shown d.text}"
  | notMember t v => s!"Invalid value for {t.text}: {shown (shownValue v)}"
  | elementCount t expected found => s!"{t.text} expects {expected} elements, got {found}"
  | notUuid => "Invalid value for UUID"
  | notIpv4 n => s!"Invalid value for IPv4: {n.toNat}"
  | notJson => "Invalid JSON"
  | mismatch v t => s!"cannot store {v.kind} value in {t.text} column"
  | unexpectedNull t => s!"unexpected NULL for {t.text}"
  | misshapen l t => s!"cannot decode {shown l.shown} as {t.text}"
  | unreadable t text => s!"Invalid value for {t.text} - '{text}'"
  | unknownMember t text => s!"Invalid value for {t.text}: '{text}'"
  | literal e => e.message
where
  /-- Characters as a text. -/
  shown (s : List Char) : String := String.ofList s

end CodecError

end ColumnStore
