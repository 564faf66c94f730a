import ColumnStore.Number.HalfEven
import ColumnStore.Number.Whole

/-!
# Decimals

Exact decimal numbers: a whole number below two to the power ninety-six, its
*mantissa*, counted in units of a negative power of ten, its *scale*. The scale
is part of the value and shows in its text (`1.50` is not written `1.5`), but
decimals are equal as soon as they are the same number.

Zero carries a sign like any other mantissa. No text denotes a zero below zero;
a binary number may.

## Main definitions

* `Decimal`: A sign, a mantissa and a scale.
* `Decimal.round`: The nearest decimal with a number of places at most.
* `Decimal.rescale`: A decimal with more places, as many as the mantissa has
  room for.
* `Decimal.powerOfTen?`: The powers of ten that are decimals.
* `Decimal.reaches`, `Decimal.atLeast`: Comparison with a decimal and with a power of ten.
* `Decimal.agrees`: Equality as numbers.
* `Decimal.text`: The written form.

## Theorems

* `powerOfTen?_of_lt`, `powerOfTen?_eq_none`: Which powers of ten are decimals.
* `atLeast_eq`: Comparison with a power of ten, decimal or not.
* `agrees_self`: A decimal is the same number as itself.
-/

namespace ColumnStore

/-- The mantissas of decimals have ninety-six binary digits at most. -/
abbrev Decimal.limit : Nat := 0x1000000000000000000000000

/-- A decimal number. -/
structure Decimal where
  /-- Whether it is below zero. -/
  negative : Bool
  /-- The number of units. -/
  mantissa : Nat
  /-- The number of decimal places of the unit. -/
  scale : Nat
  /-- The mantissa has room for the number of units. -/
  mantissa_lt : mantissa < Decimal.limit
  deriving DecidableEq

namespace Decimal

/-- The largest number of places that a decimal is created with. -/
def maxScale : Nat := 28

/-- Zero. -/
def zero : Decimal := ⟨false, 0, 0, by decide⟩

/-- The decimal of a mantissa, if the mantissa has room. -/
def make? (negative : Bool) (mantissa scale : Nat) : Option Decimal :=
  if h : mantissa < Decimal.limit then some ⟨negative, mantissa, scale, h⟩ else none

/-- The decimal of a mantissa, where a zero is never below zero. -/
def unsignedZero? (negative : Bool) (mantissa scale : Nat) : Option Decimal :=
  make? (negative && mantissa ≠ 0) mantissa scale

/-- The decimal of a signed word. -/
def ofInt64 (n : Int64) : Decimal :=
  ⟨n.toInt < 0, n.toInt.natAbs, 0, by
    have := n.toInt_lt
    have := n.le_toInt
    simp only [limit]
    omega⟩

/-- The decimal of an unsigned word. -/
def ofUInt64 (n : UInt64) : Decimal :=
  ⟨false, n.toNat, 0, by
    have := n.toNat_lt
    simp only [limit]
    omega⟩

/-- The nearest decimal with `places` places at most, a half to the even
    mantissa. A decimal that rounds to zero loses its sign. -/
def round (d : Decimal) (places : Nat) : Decimal :=
  if h : d.scale ≤ places then d
  else
    let unit := Nat.pow 10 (d.scale - places)
    have two_le : 2 ≤ unit :=
      Nat.le_trans (by decide : 2 ≤ Nat.pow 10 1) (Nat.pow_le_pow_right (by decide) (by omega))
    let m := Number.halfEven d.mantissa unit
    ⟨d.negative && m ≠ 0, m, places,
      Nat.lt_of_le_of_lt (Number.halfEven_le two_le) d.mantissa_lt⟩

/-- Appends `n` zeros to a decimal, or as many as its mantissa has room for. -/
def extend (d : Decimal) : Nat → Decimal
  | 0 => d
  | n + 1 =>
    if h : 10 * d.mantissa < Decimal.limit then
      extend ⟨d.negative, 10 * d.mantissa, d.scale + 1, h⟩ n
    else d

/-- A decimal with `places` places, if it has fewer and its mantissa has room
    for the zeros. A zero takes the number of places alone, up to the largest
    that decimals are created with. -/
def rescale (d : Decimal) (places : Nat) : Decimal :=
  if d.scale = places then d
  else if d.mantissa = 0 then ⟨d.negative, 0, min places maxScale, by decide⟩
  else if d.scale < places then d.extend (places - d.scale)
  else d

/-- Ten to a power, computed in a signed word of 128 binary digits, if that and the mantissa
    have room for it. -/
def powerOfTen? (n : Nat) : Option Decimal :=
  if Nat.pow 10 n < 0x80000000000000000000000000000000 then make? false (Nat.pow 10 n) 0 else none

/-- Whether a decimal is another one or more, signs aside. -/
def reaches (d other : Decimal) : Bool :=
  other.mantissa * Nat.pow 10 d.scale ≤ d.mantissa * Nat.pow 10 other.scale

/-- Whether a decimal is ten to the power `n` or more, its sign aside. If that power is no
    decimal, none is as large. -/
def atLeast (d : Decimal) (n : Nat) : Bool :=
  (powerOfTen? n).any d.reaches

/-- Ten to a power of at most twenty-eight is a decimal. -/
theorem powerOfTen?_of_lt {n : Nat} (h : n < 29) :
    ∃ room, powerOfTen? n = some ⟨false, Nat.pow 10 n, 0, room⟩ := by
  have hle : Nat.pow 10 n ≤ Nat.pow 10 28 := Nat.pow_le_pow_right (by decide) (by omega)
  have room : Nat.pow 10 n < limit := Nat.lt_of_le_of_lt hle (by decide)
  refine ⟨room, ?_⟩
  rw [powerOfTen?, if_pos (Nat.lt_of_le_of_lt hle (by decide)), make?, dif_pos room]

theorem limit_le_pow {n : Nat} (h : 29 ≤ n) : limit ≤ Nat.pow 10 n :=
  Nat.le_trans (by decide : limit ≤ Nat.pow 10 29) (Nat.pow_le_pow_right (by decide) h)

/-- Ten to any higher power is no decimal. -/
theorem powerOfTen?_eq_none {n : Nat} (h : 29 ≤ n) : powerOfTen? n = none := by
  rw [powerOfTen?, make?, dif_neg (Nat.not_lt.2 (limit_le_pow h)), ite_self]

/-- A power of ten that is no decimal is above all decimals, so the comparison is that of the
    numbers whether it is one or not. -/
theorem atLeast_eq (d : Decimal) (n : Nat) :
    d.atLeast n = decide (Nat.pow 10 n * Nat.pow 10 d.scale ≤ d.mantissa) := by
  by_cases h : n < 29
  · rcases powerOfTen?_of_lt h with ⟨room, hpower⟩
    rw [atLeast, hpower, Option.any_some, reaches]
    exact congrArg (fun m => decide (_ ≤ m)) (Nat.mul_one d.mantissa)
  · have hlimit := limit_le_pow (Nat.not_lt.1 h)
    have hscale : Nat.pow 10 n ≤ Nat.pow 10 n * Nat.pow 10 d.scale :=
      Nat.le_mul_of_pos_right _ (Nat.pow_pos (by decide))
    have hmantissa := d.mantissa_lt
    rw [atLeast, powerOfTen?_eq_none (Nat.not_lt.1 h), Option.any_none]
    exact (decide_eq_false (by omega)).symm

/-- The number that a decimal stands for, in units of `places` places. The
    places must be enough for the decimal. -/
def units (d : Decimal) (places : Nat) : Int :=
  let n : Int := d.mantissa * Nat.pow 10 (places - d.scale)
  if d.negative then -n else n

/-- Equality as numbers. -/
def agrees (a b : Decimal) : Bool :=
  let places := max a.scale b.scale
  a.units places = b.units places

/-- A decimal is the same number as itself. -/
theorem agrees_self (d : Decimal) : d.agrees d = true := by
  simp [agrees]

/-- The written form: all places, and a digit before the point. -/
def text (d : Decimal) : List Char :=
  let ds := Number.padded (d.scale + 1) d.mantissa
  let ds :=
    if d.scale = 0 then ds
    else ds.take (ds.length - d.scale) ++ '.' :: ds.drop (ds.length - d.scale)
  if d.negative then '-' :: ds else ds

end Decimal

end ColumnStore
