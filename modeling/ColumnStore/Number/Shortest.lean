import ColumnStore.Number.Binary64
import ColumnStore.Number.Whole

/-!
# Shortest Decimals

The decimal text of a binary number with the fewest digits that still reads
back as that number, and among those the nearest to it.

Every real number between the midpoints to the two neighbours of a number is
read as that number, and the midpoints themselves are if its significand is
even. On the grid of decimals with one digit, then two, and so on up to
seventeen, only the two grid points around the number can be nearest, so the
first grid of which one of the two lies in that interval gives the answer. If
both do and are equally near, the two notations of this library choose
differently, so the choice is a parameter.

## Main definitions

* `Tie`: The choice between two equally near decimals.
* `floorLog10`: The decimal place of the first digit of a quotient.
* `shortest`: The shortest decimal of a rank, as a whole number of units of a
  power of ten.
-/

namespace ColumnStore

namespace Number

/-- The choice between two equally near decimals. -/
inductive Tie
  /-- The larger one. -/
  | up
  /-- The one with the even last digit. -/
  | even
  deriving DecidableEq

/-- The exponent of the power of ten at or below a positive quotient. -/
def floorLog10 (num den : Nat) : Int :=
  if den ≤ num then ((digits (num / den)).length : Int) - 1
  else
    let l := (digits (den / num)).length
    if den ≤ num * Nat.pow 10 (l - 1) then 1 - (l : Int) else -(l : Int)

/-- The interval of reals that are read as one number, with the number itself,
    all in units of one quotient; and whether the ends belong to it. -/
structure Basin where
  /-- The lower midpoint. -/
  low : Nat
  /-- The number. -/
  value : Nat
  /-- The upper midpoint. -/
  high : Nat
  /-- The divisor of the three. -/
  den : Nat
  /-- Whether the midpoints belong to the number. -/
  closed : Bool

/-- The basin of a rank. Below a power of two the neighbour is nearer by half,
    except at the bottom of the format. -/
def Basin.ofRank (rank : Nat) : Basin :=
  let f := BinaryFormat.double
  let (m, e) := f.parts rank
  let scale := Nat.pow 2 (e - 2).toNat
  let narrow := m = f.half && f.bottom < e
  -- In units of a quarter of the last binary place, so that the midpoints are whole.
  { low := (if narrow then 4 * m - 1 else 4 * m - 2) * scale
    value := 4 * m * scale
    high := (4 * m + 2) * scale
    den := Nat.pow 2 (2 - e).toNat
    closed := m % 2 = 0 }

/-- Whether a multiple `c` of ten to the power `t` lies in a basin. -/
def Basin.holds (b : Basin) (c : Nat) (t : Int) : Bool :=
  -- Both sides of the comparison are multiplied out, so that no quotient is rounded.
  let up := Nat.pow 10 (-t).toNat
  let x := c * (b.den * Nat.pow 10 t.toNat)
  if b.closed then b.low * up ≤ x && x ≤ b.high * up else b.low * up < x && x < b.high * up

/-- The nearest of the grid points around a number that lie in its basin, if
    any, on the grid of multiples of ten to the power `t`. -/
def Basin.gridPoint? (b : Basin) (tie : Tie) (t : Int) : Option Nat :=
  let x := b.value * Nat.pow 10 (-t).toNat
  let unit := b.den * Nat.pow 10 t.toNat
  let c := x / unit
  match b.holds c t, b.holds (c + 1) t with
  | false, false => none
  | true, false => some c
  | false, true => some (c + 1)
  | true, true =>
    -- Both neighbours would be read back, so the nearer one is taken.
    let rest := 2 * (x % unit)
    if rest < unit then some c
    else if unit < rest then some (c + 1)
    else match tie with
      | .up => some (c + 1)
      | .even => if c % 2 = 0 then some c else some (c + 1)

/-- The first answer on the grids from ten to the power `t` downwards. The last
    grid always has one. -/
def Basin.search (b : Basin) (tie : Tie) : Nat → Int → Nat × Int
  | 0, t => (b.value * Nat.pow 10 (-t).toNat / (b.den * Nat.pow 10 t.toNat), t)
  | n + 1, t =>
    match b.gridPoint? tie t with
    | some c => (c, t)
    | none => Basin.search b tie n (t - 1)

/-- A decimal without zeros at its end, as units of a higher power of ten. At
    most `n` zeros are moved. -/
def dropZeros : Nat → Nat → Int → Nat × Int
  | 0, c, t => (c, t)
  | n + 1, c, t => if c % 10 = 0 then dropZeros n (c / 10) (t + 1) else (c, t)

/-- The shortest decimal that reads back as a positive number, given by rank:
    a whole number of units, and the power of ten that is the unit. -/
def shortest (tie : Tie) (rank : Nat) : Nat × Int :=
  let b := Basin.ofRank rank
  let (c, t) := b.search tie 17 (floorLog10 b.value b.den)
  dropZeros 17 c t

/-- A whole number of units of a power of ten, without an exponent. -/
def positional (c : Nat) (t : Int) : List Char :=
  let ds := digits c
  if 0 ≤ t then ds ++ List.replicate t.toNat '0'
  else
    let places := (-t).toNat
    -- Zeros in front, so that a digit stands before the point.
    let ds := List.replicate (places + 1 - ds.length) '0' ++ ds
    ds.take (ds.length - places) ++ '.' :: ds.drop (ds.length - places)

end Number

end ColumnStore
