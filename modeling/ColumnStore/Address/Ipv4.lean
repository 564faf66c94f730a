import ColumnStore.Number.Whole
import ColumnStore.Text.Cell

/-!
# Internet Addresses of Four Bytes

Addresses of 32 bits, written as four decimal numbers with points between them.

## Main definitions

* `Ipv4`: An address.
* `Ipv4.text`: The written form.
* `Ipv4.dotted?`: The address of a text in that form.
* `Ipv4.read?`: The address of such a text or of a plain number.
-/

namespace ColumnStore

/-- An internet address of four bytes. -/
structure Ipv4 where
  /-- The address as a number. -/
  bits : UInt32
  deriving DecidableEq

namespace Ipv4

/-- The address of zeros. -/
def unspecified : Ipv4 := ⟨0⟩

/-- The byte `i` places from the lowest. -/
def byte (a : Ipv4) (i : Nat) : Nat :=
  a.bits.toNat / Nat.pow 256 i % 256

/-- The written form. -/
def text (a : Ipv4) : List Char :=
  Number.digits (a.byte 3) ++ '.' :: Number.digits (a.byte 2) ++ '.' :: Number.digits (a.byte 1)
    ++ '.' :: Number.digits (a.byte 0)

/-- One number of the written form: up to three digits, no zero in front of
    others, and 255 at most. -/
def byte? (s : List Char) : Option Nat :=
  if s.length ≤ 3 && !(1 < s.length && s.head? = some '0') then
    (Number.ofDigits? s).filter (· < 256)
  else none

/-- The address of a text in the written form. -/
def dotted? (s : List Char) : Option Ipv4 := do
  match ← (Text.splitOn '.' s).mapM byte? with
  | [a, b, c, d] => some ⟨UInt32.ofNat (((a * 256 + b) * 256 + c) * 256 + d)⟩
  | _ => none

/-- The address of a text in the written form, or of a number. -/
def read? (s : List Char) : Option Ipv4 :=
  dotted? s <|> (Number.naturalBelow? UInt32.size s).map fun n => ⟨UInt32.ofNat n⟩

end Ipv4

end ColumnStore
