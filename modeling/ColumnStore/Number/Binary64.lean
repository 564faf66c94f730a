import ColumnStore.Number.HalfEven

/-!
# Binary Floating Point

The double-precision numbers, as exact values.

The finite numbers of one sign are counted upwards from zero, and a number is
held by its place in that order, its *rank*. The two neighbours of a number are
then the ranks one below and one above, rounding up is adding one to a rank,
whatever that does to significand and exponent, and the rank after the last
one is infinity. The value of a rank is a significand times a power of two.

Single precision appears only on the way in: a number given in it is rounded
to the narrower grid and is then an ordinary double.

## Main definitions

* `BinaryFormat`: Significand length and exponent range of a grid of numbers.
* `BinaryFormat.parts`: Significand and exponent of a rank.
* `BinaryFormat.nearestRank`: The rank nearest to a quotient.
* `Binary64`: A double-precision number.
* `Binary64.nearest`: The number nearest to a quotient.
* `Binary64.agrees`: Equality of numbers, where zeros agree and nothing agrees
  with a value that is not a number.
-/

namespace ColumnStore

/-- The significand length of a grid of binary numbers, its least exponent and
    the number of exponents. -/
structure BinaryFormat where
  /-- Binary digits of a significand. -/
  precision : Nat
  /-- The exponent of the smallest numbers. -/
  bottom : Int
  /-- How many exponents there are. -/
  exponents : Nat

namespace BinaryFormat

/-- The format of double precision. -/
def double : BinaryFormat := ⟨53, -1074, 2046⟩

/-- The format of single precision. -/
def single : BinaryFormat := ⟨24, -149, 254⟩

/-- The least significand of a number above the bottom exponent; as many
    numbers share one exponent. -/
def half (f : BinaryFormat) : Nat :=
  Nat.pow 2 (f.precision - 1)

/-- The rank after the largest finite number. -/
def limit (f : BinaryFormat) : Nat :=
  (f.exponents + 1) * f.half

/-- The significand and the exponent of a rank. -/
def parts (f : BinaryFormat) (rank : Nat) : Nat × Int :=
  match rank / f.half with
  | 0 => (rank, f.bottom)
  | b + 1 => (rank % f.half + f.half, f.bottom + b)

/-- The exponent of the power of two at or below a positive quotient. -/
def floorLog2 (num den : Nat) : Int :=
  let k : Int := (Nat.log2 num : Int) - Nat.log2 den
  let low := if 0 ≤ k then den * Nat.pow 2 k.toNat ≤ num else den ≤ num * Nat.pow 2 (-k).toNat
  if low then k else k - 1

/-- The rank nearest to a quotient, a half to the even significand. Ranks at or
    above the limit stand for numbers too large for the format. -/
def nearestRank (f : BinaryFormat) (num den : Nat) : Nat :=
  if num = 0 then 0
  else
    let e := max f.bottom (floorLog2 num den - (f.precision - 1 : Nat))
    let q := Number.halfEven (num * Nat.pow 2 (-e).toNat) (den * Nat.pow 2 e.toNat)
    (e - f.bottom).toNat * f.half + q

end BinaryFormat

/-- A double-precision number. -/
inductive Binary64
  /-- Not a number. -/
  | nan
  /-- An infinity. -/
  | infinite (negative : Bool)
  /-- A finite number by its sign and its rank. -/
  | finite (negative : Bool) (rank : Fin 0x7FF0000000000000)
  deriving DecidableEq

namespace Binary64

/-- The ranks of the type are those of the format. -/
theorem limit_double : BinaryFormat.double.limit = 0x7FF0000000000000 := by decide

/-- The zero without a sign. -/
def zero : Binary64 := .finite false ⟨0, by decide⟩

/-- The number of a rank, infinite from the limit on. -/
def ofRank (negative : Bool) (rank : Nat) : Binary64 :=
  if h : rank < 0x7FF0000000000000 then .finite negative ⟨rank, h⟩ else .infinite negative

/-- The number nearest to a quotient. -/
def nearest (negative : Bool) (num den : Nat) : Binary64 :=
  ofRank negative (BinaryFormat.double.nearestRank num den)

/-- The number nearest to an integer. -/
def ofInt (n : Int) : Binary64 :=
  nearest (n < 0) n.natAbs 1

/-- The significand and the exponent of a rank. -/
def parts (rank : Nat) : Nat × Int :=
  BinaryFormat.double.parts rank

/-- The value of a rank as a quotient. -/
def ratio (rank : Nat) : Nat × Nat :=
  let (m, e) := parts rank
  (m * Nat.pow 2 e.toNat, Nat.pow 2 (-e).toNat)

/-- The product of two finite numbers without a sign, given by rank. -/
def product (a b : Nat) : Binary64 :=
  let (n, d) := ratio a
  let (n', d') := ratio b
  nearest false (n * n') (d * d')

/-- The quotient of two positive numbers, given by rank. -/
def quotient (a b : Nat) : Binary64 :=
  let (n, d) := ratio a
  let (n', d') := ratio b
  nearest false (n * d') (d * n')

/-- The number in double precision of a rank in single precision. -/
def ofSingleRank (negative : Bool) (rank : Nat) : Binary64 :=
  if rank < BinaryFormat.single.limit then
    let (m, e) := BinaryFormat.single.parts rank
    nearest negative (m * Nat.pow 2 e.toNat) (Nat.pow 2 (-e).toNat)
  else .infinite negative

/-- Whether a number has the sign of the numbers below zero. -/
def negative : Binary64 → Bool
  | nan => false
  | infinite s => s
  | finite s _ => s

/-- The number with the other sign. -/
def neg : Binary64 → Binary64
  | nan => nan
  | infinite s => infinite (!s)
  | finite s r => finite (!s) r

/-- Equality as numbers: the two zeros agree, and a value that is not a number
    agrees with nothing. -/
def agrees : Binary64 → Binary64 → Bool
  | infinite s, infinite t => s = t
  | finite s r, finite t q => r = q && (s = t || r.val = 0)
  | _, _ => false

end Binary64

end ColumnStore
