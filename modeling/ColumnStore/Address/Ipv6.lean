import ColumnStore.Address.Ipv4
import ColumnStore.Address.Uuid

/-!
# Internet Addresses of Sixteen Bytes

Addresses of 128 bits, written as eight hexadecimal numbers with colons between
them. The longest run of two or more zeros, the first of several, is written as
two colons. An address that stands for one of four bytes ends in that address
with its points.

Reading takes two colons for any run of zeros, a single one included, and an
address of four bytes in place of the last two numbers of any address.

## Main definitions

* `Ipv6`: An address.
* `Ipv6.ofIpv4`: The address that stands for one of four bytes.
* `Ipv6.text`: The written form.
* `Ipv6.read?`: The address of a text.
-/

namespace ColumnStore

/-- An internet address of sixteen bytes. -/
structure Ipv6 where
  /-- The address as a number. -/
  bits : BitVec 128
  deriving DecidableEq

namespace Ipv6

/-- The address of zeros. -/
def unspecified : Ipv6 := ⟨0⟩

/-- The address of eight numbers. -/
def ofSegments (ns : List Nat) : Ipv6 :=
  ⟨BitVec.ofNat 128 (ns.foldl (fun n s => 65536 * n + s) 0)⟩

/-- The eight numbers of an address. -/
def segments (a : Ipv6) : List Nat :=
  (List.range 8).map fun i => a.bits.toNat / Nat.pow 65536 (7 - i) % 65536

/-- The address that stands for one of four bytes. -/
def ofIpv4 (a : Ipv4) : Ipv6 :=
  ⟨BitVec.ofNat 128 (0xFFFF * UInt32.size + a.bits.toNat)⟩

/-- The address of four bytes that an address stands for. -/
def toIpv4? (a : Ipv6) : Option Ipv4 :=
  if a.bits.toNat / UInt32.size = 0xFFFF then
    some ⟨UInt32.ofNat (a.bits.toNat % UInt32.size)⟩
  else none

/-- A number in hexadecimal digits without zeros in front. -/
def segmentText (n : Nat) : List Char :=
  Nat.toDigits 16 n

/-- Numbers with colons between them. -/
def joined (ns : List Nat) : List Char :=
  [':'].intercalate (ns.map segmentText)

/-- The number of zeros at the start of a list. -/
def zeros (ns : List Nat) : Nat :=
  (ns.takeWhile (· = 0)).length

/-- The start and the length of the first longest run of zeros. -/
def longestRun (ns : List Nat) : Nat × Nat :=
  (List.range ns.length).foldl
    (fun best i => if best.2 < zeros (ns.drop i) then (i, zeros (ns.drop i)) else best) (0, 0)

/-- The written form. -/
def text (a : Ipv6) : List Char :=
  match a.toIpv4? with
  | some v4 => "::ffff:".toList ++ v4.text
  | none =>
    let ns := a.segments
    let (start, length) := longestRun ns
    if 2 ≤ length then joined (ns.take start) ++ ':' :: ':' :: joined (ns.drop (start + length))
    else joined ns

/-- One number: one to four hexadecimal digits. -/
def segment? (s : List Char) : Option Nat :=
  if 1 ≤ s.length && s.length ≤ 4 then Number.ofHexDigits? s else none

/-- Numbers with colons between them, where an address of four bytes may stand
    for the last two. -/
def segments? : List (List Char) → Option (List Nat)
  | [] => some []
  | [s] =>
    (segment? s).map ([·]) <|>
      (Ipv4.dotted? s).map fun a => [a.bits.toNat / 65536, a.bits.toNat % 65536]
  | s :: r => do pure ((← segment? s) :: (← segments? r))

/-- Numbers with colons between them, perhaps none, without an address of four
    bytes. -/
def leading? (s : List Char) : Option (List Nat) :=
  if s = [] then some [] else (Text.splitOn ':' s).mapM segment?

/-- Numbers with colons between them, perhaps none. -/
def trailing? (s : List Char) : Option (List Nat) :=
  if s = [] then some [] else segments? (Text.splitOn ':' s)

/-- The text before and after the first two colons. -/
def cut : List Char → Option (List Char × List Char)
  | ':' :: ':' :: r => some ([], r)
  | c :: r => (cut r).map fun (a, b) => (c :: a, b)
  | [] => none

/-- The address of a text. -/
def read? (s : List Char) : Option Ipv6 :=
  match cut s with
  | none => do
    let ns ← trailing? s
    if ns.length = 8 then some (ofSegments ns) else none
  | some (a, b) => do
    let ns ← leading? a
    let ms ← trailing? b
    if ns.length + ms.length ≤ 7 then
      some (ofSegments (ns ++ List.replicate (8 - ns.length - ms.length) 0 ++ ms))
    else none

end Ipv6

end ColumnStore
