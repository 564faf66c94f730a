import ColumnStore.Number.Hex
import ColumnStore.Text.Reader

/-!
# Universally Unique Identifiers

Identifiers of 128 bits, written as 32 hexadecimal digits in five groups.
Reading also takes the digits without hyphens, and the grouped form in braces
or after the name of its scheme in any case.

## Main definitions

* `Uuid`: An identifier.
* `Uuid.text`: The written form, in lower case.
* `Uuid.read?`: The identifier of a text.
-/

namespace ColumnStore

/-- A universally unique identifier. -/
structure Uuid where
  /-- The identifier as a number. -/
  bits : BitVec 128
  deriving DecidableEq

namespace Uuid

/-- The identifier of zeros. -/
def nil : Uuid := ⟨0⟩

/-- The lengths of the five groups. -/
def groups : List Nat := [8, 4, 4, 4, 12]

/-- Text cut into groups of the given lengths, with hyphens between them. -/
def hyphenated : List Nat → List Char → List Char
  | [], _ => []
  | [n], s => s.take n
  | n :: ns, s => s.take n ++ '-' :: hyphenated ns (s.drop n)

/-- The written form. -/
def text (u : Uuid) : List Char :=
  hyphenated groups (Number.hexPadded 32 u.bits.toNat)

/-- The identifier of 32 digits. -/
def simple? (s : List Char) : Option Uuid :=
  if s.length = 32 then (Number.ofHexDigits? s).map fun n => ⟨BitVec.ofNat 128 n⟩ else none

/-- The digits of a grouped text, if its hyphens stand where they must. -/
def ungroup? : List Nat → List Char → Option (List Char)
  | [], s => if s = [] then some [] else none
  | [n], s => if s.length = n then some s else none
  | n :: ns, s =>
    match s.drop n with
    | '-' :: r => (ungroup? ns r).map (s.take n ++ ·)
    | _ => none

/-- The identifier of a grouped text. -/
def grouped? (s : List Char) : Option Uuid :=
  (ungroup? groups s).bind simple?

/-- The identifier of a grouped text in braces. -/
def braced? : List Char → Option Uuid
  | '\x7b' :: s =>
    match s.reverse with
    | '\x7d' :: r => grouped? r.reverse
    | _ => none
  | _ => none

/-- The identifier of a grouped text after the name of the scheme. -/
def named? (s : List Char) : Option Uuid := do
  let (_, r) ← Text.Reader.ignoringCase "urn:uuid:".toList s
  grouped? r

/-- The identifier of a text. -/
def read? (s : List Char) : Option Uuid :=
  simple? s <|> grouped? s <|> braced? s <|> named? s

end Uuid

end ColumnStore
