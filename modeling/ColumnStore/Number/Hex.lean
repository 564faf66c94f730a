/-!
# Hexadecimal Digits

Numbers in base sixteen. Letters are written in lower case and read in either.

## Main definitions

* `ofHexDigits?`: The number that hexadecimal digits denote.
* `hexPadded`: A fixed number of hexadecimal digits.
-/

namespace ColumnStore

namespace Number

/-- The value of a hexadecimal digit. -/
def hexValue? (c : Char) : Option Nat :=
  if c.isDigit then some (c.toNat - '0'.toNat)
  else if 'a' ≤ c && c ≤ 'f' then some (c.toNat - 'a'.toNat + 10)
  else if 'A' ≤ c && c ≤ 'F' then some (c.toNat - 'A'.toNat + 10)
  else none

/-- The number that hexadecimal digits denote, highest place first. -/
def ofHexDigits? (s : List Char) : Option Nat :=
  s.foldlM (fun n c => (hexValue? c).map (16 * n + ·)) 0

/-- The lowest `width` hexadecimal digits of a number, in lower case. -/
def hexPadded : Nat → Nat → List Char
  | 0, _ => []
  | width + 1, n => hexPadded width (n / 16) ++ [Nat.digitChar (n % 16)]

end Number

end ColumnStore
