import ColumnStore.Decimal.Basic
import ColumnStore.Number.Binary64

/-!
# Decimals from Binary Numbers

The decimal that a binary number is stored as, with all the places that the
mantissa has room for.

A power of two is a power of ten over a power of five. Negative powers of five
are multiplied into the mantissa one at a time; a factor without room is not
multiplied, the mantissa is halved instead and the power of ten corrected. For
positive powers the mantissa is doubled while it has room, and divided by five
when it has none. What remains is a power of ten: above zero it is multiplied
out, and the number is refused if there is no room; below the largest scale the
surplus places are rounded off one by one. Digits may be lost at each of these
steps, and the last places of the result depend on their order.

## Main definitions

* `Decimal.ofBinary64?`: The decimal of a finite number within range.
-/

namespace ColumnStore

namespace Decimal

/-- Multiplies a mantissa by a negative power of two, `n` factors of a half, as
    fives over tens. Gives the mantissa and the power of ten. -/
def halvings : Nat → Nat → Int → Nat × Int
  | 0, m, e => (m, e)
  | n + 1, m, e =>
    if m % 2 = 0 then halvings n (m / 2) (e + 1)
    else if 5 * m < limit then halvings n (5 * m) e
    else halvings n (m / 2) (e + 1)

/-- Multiplies a mantissa by a positive power of two, `n` factors of two, as
    tens over fives. Gives the mantissa and the power of ten. -/
def doublings : Nat → Nat → Int → Nat × Int
  | 0, m, e => (m, e)
  | n + 1, m, e =>
    if 2 * m < limit then doublings n (2 * m) (e - 1) else doublings n (m / 5) e

/-- Takes `n` places off a mantissa, rounding each time with a half upwards.
    A mantissa that vanishes is the plain zero. -/
def shorten : Nat → Nat → Nat → Nat × Nat
  | 0, m, scale => (m, scale)
  | n + 1, m, scale =>
    let q := m / 10
    if q = 0 then (0, 0)
    else shorten n (if 5 ≤ m % 10 then q + 1 else q) (scale - 1)

/-- The decimal of a mantissa times a power of ten. -/
def ofParts? (negative : Bool) (m : Nat) (e : Int) : Option Decimal :=
  if 0 ≤ e then make? negative (m * Nat.pow 10 e.toNat) 0
  else
    let scale := (-e).toNat
    let (m, scale) := shorten (scale - maxScale) m scale
    make? negative m scale

/-- The decimal of a binary number, if it is finite and the mantissa has room
    for its whole part. The sign of a zero is kept. -/
def ofBinary64? : Binary64 → Option Decimal
  | .finite negative rank =>
    if rank.val = 0 then make? negative 0 0
    else
      let (m, e) := Binary64.parts rank
      let (m, e) := if e < 0 then halvings (-e).toNat m e else doublings e.toNat m e
      ofParts? negative m e
  | _ => none

end Decimal

end ColumnStore
