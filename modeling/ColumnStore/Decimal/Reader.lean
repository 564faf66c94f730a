import ColumnStore.Decimal.Basic

/-!
# Reading Decimals

How the text of a decimal is read.

Digits are taken from left to right with one point at most, and underscores
may stand after any digit. A decimal has room for a limited number of places:
once the last place is filled, the next character decides the rounding, and
after it there may be digits and underscores only, which do not count. Where
even the mantissa has no room for a place the same happens one digit earlier; a
whole part without room is refused.

Which character decides is a matter of the mantissa if underscores follow the
last place. The first of them counts as zero as long as the mantissa is short. A
long mantissa passes over them to the digit behind them, if there is one.

A text with an exponent is read as its coefficient, with the point moved
afterwards. A point moved to the left adds places, and gives up those of the
coefficient for which there is no room. A point moved to the right takes places
away before it adds zeros.

## Main definitions

* `Decimal.plain?`: Digits with an optional sign and point.
* `Decimal.scientific?`: Such a text with an exponent after it.
* `Decimal.read?`: Either of the two.
-/

namespace ColumnStore

namespace Decimal

/-- The least mantissa that counts as long: another digit might not fit a word
    of sixty-four binary digits. -/
def longMantissa : Nat := 0xFFFFFFFFFFFFFFFF / 10 - 0xFF

/-- Whether a character may stand among the digits behind the last place. -/
def isDigitOrBreak (c : Char) : Bool :=
  c.isDigit || c = '_'

/-- Ends the digits at a mantissa with no room for another place. The character
    that follows rounds it, a half upwards, where an underscore counts as zero. A
    mantissa that outgrows its room by this gives up its last place. -/
def roundLast (mantissa scale : Nat) : List Char → Option (Nat × Nat)
  | [] => some (mantissa, scale)
  | c :: r =>
    if !(c :: r).all isDigitOrBreak then none
    else if c = '_' || Number.digitValue c < 5 then some (mantissa, scale)
    else if mantissa + 1 < limit then some (mantissa + 1, scale)
    -- Rounding outgrew the mantissa: its last place is rounded away in turn.
    else if scale = 0 then none
    else some ((mantissa + 1 + 4) / 10, scale - 1)

/-- Reads the digits of a decimal. `pointed` and `started` say whether the
    point and the first digit have been met. -/
def scan (pointed started : Bool) (mantissa scale : Nat) : List Char → Option (Nat × Nat)
  | [] => if started then some (mantissa, scale) else none
  | c :: r =>
    if c.isDigit then
      let next := 10 * mantissa + Number.digitValue c
      let places := if pointed then scale + 1 else 0
      if next < limit then
        if pointed && maxScale ≤ places then
          -- A long mantissa passes over underscores to the digit that decides.
          roundLast next places (if longMantissa ≤ mantissa then r.dropWhile (· = '_') else r)
        else scan pointed true next places r
      -- A digit behind the point may be rounded away, one before it may not.
      else if pointed then roundLast mantissa scale (c :: r)
      else none
    else if c = '.' && !pointed then scan true started mantissa scale r
    else if c = '_' && started then scan pointed started mantissa scale r
    else none

/-- A text of digits after its sign. -/
def unsigned? (negative : Bool) (s : List Char) : Option Decimal := do
  let (mantissa, scale) ← scan false false 0 0 s
  unsignedZero? negative mantissa scale

/-- A text of digits with an optional sign. -/
def plain? : List Char → Option Decimal
  | '-' :: s => unsigned? true s
  | '+' :: s => unsigned? false s
  | s => unsigned? false s

/-- The decimal with `places` places, fewer than it has, a half away from zero.
    The sign of a zero is kept. -/
def shortenTo? (d : Decimal) (places : Nat) : Option Decimal :=
  let unit := Nat.pow 10 (d.scale - places)
  make? d.negative ((d.mantissa + unit / 2) / unit) places

/-- Moves the point of a decimal to the left. -/
def shiftLeft? (d : Decimal) (n : Nat) : Option Decimal :=
  if d.scale + n ≤ maxScale then make? d.negative d.mantissa (d.scale + n)
  else if n ≤ maxScale then
    (d.shortenTo? (maxScale - n)).bind fun d => make? d.negative d.mantissa maxScale
  else none

/-- Moves the point of a decimal to the right. -/
def shiftRight? (d : Decimal) (n : Nat) : Option Decimal :=
  if n ≤ d.scale then make? d.negative d.mantissa (d.scale - n)
  else if n ≤ maxScale then make? d.negative (d.mantissa * Nat.pow 10 (n - d.scale)) 0
  else none

/-- A text of digits with an exponent. -/
def scientific? (s : List Char) : Option Decimal := do
  let mark := fun c => c = 'e' || c = 'E'
  let d ← plain? (s.takeWhile fun c => !mark c)
  match s.dropWhile fun c => !mark c with
  | [] => none
  | _ :: '-' :: e => shiftLeft? d (← Number.naturalBelow? UInt32.size e)
  | _ :: e => shiftRight? d (← Number.naturalBelow? UInt32.size e)

/-- The text of a decimal. -/
def read? (s : List Char) : Option Decimal :=
  plain? s <|> scientific? s

end Decimal

end ColumnStore
