import ColumnStore.Number.Shortest
import ColumnStore.Text.Reader

/-!
# Text of Binary Numbers

How a floating-point number is written and read.

A number is written with the fewest digits that read back as it, always
positionally and never with an exponent, and without a point if it is whole.
Of two equally near decimals the larger is written. Reading also takes an
exponent, a plus sign, a point at either end of the digits, and the names of
the values that have no digits, in any case.

In a statement the name of the value that is not a number is in lower case; in
messages it is not.

## Main definitions

* `Reading.read?`: A text as a decimal with a sign and an exponent.
* `Binary64.read?`, `Binary64.readSingle?`: The number nearest to a text, on
  either grid.
* `Binary64.text`, `Binary64.sql`: The written forms.
-/

namespace ColumnStore

/-- What the text of a number says, before it is rounded to a grid. -/
inductive Reading
  /-- Not a number. -/
  | nan
  /-- An infinity. -/
  | infinite (negative : Bool)
  /-- `coefficient` units of ten to the power `exponent`. -/
  | decimal (negative : Bool) (coefficient : Nat) (exponent : Int)

namespace Reading

/-- The exponent after the mark `e`, nothing if there is no mark. The text must
    end after it. -/
def exponent? : List Char → Option Int
  | [] => some 0
  | c :: s => if c = 'e' || c = 'E' then Number.integer? s else none

/-- Digits with an optional point and an optional exponent. At least one digit
    stands before or after the point. -/
def decimal? (negative : Bool) (s : List Char) : Option Reading :=
  let whole := s.takeWhile Char.isDigit
  let r := s.dropWhile Char.isDigit
  let (places, r) := match r with
    | '.' :: r => (r.takeWhile Char.isDigit, r.dropWhile Char.isDigit)
    | r => ([], r)
  match whole ++ places, exponent? r with
  | c :: ds, some e => some (.decimal negative (Number.ofDigits (c :: ds)) (e - places.length))
  | _, _ => none

/-- A number without its sign. -/
def unsigned? (negative : Bool) (s : List Char) : Option Reading :=
  let name := s.map Char.toLower
  if name = "nan".toList then some .nan
  else if name = "inf".toList || name = "infinity".toList then some (.infinite negative)
  else decimal? negative s

/-- The whole text of a number. -/
def read? : List Char → Option Reading
  | '-' :: s => unsigned? true s
  | '+' :: s => unsigned? false s
  | s => unsigned? false s

/-- The rank of a decimal on a grid. A decimal far outside the range of every
    grid is not computed but taken to its end. -/
def rank (f : BinaryFormat) (coefficient : Nat) (exponent : Int) : Nat :=
  let place := ((Number.digits coefficient).length : Int) + exponent
  if coefficient = 0 || place < -400 then 0
  else if 400 < place then f.limit
  else f.nearestRank (coefficient * Nat.pow 10 exponent.toNat) (Nat.pow 10 (-exponent).toNat)

end Reading

namespace Binary64

/-- The number nearest to what a text says. -/
def ofReading : Reading → Binary64
  | .nan => .nan
  | .infinite s => .infinite s
  | .decimal s c e => ofRank s (Reading.rank .double c e)

/-- The number that a text denotes. -/
def read? (s : List Char) : Option Binary64 :=
  (Reading.read? s).map ofReading

/-- The number that a text denotes on the grid of single precision. -/
def readSingle? (s : List Char) : Option Binary64 :=
  (Reading.read? s).map fun
    | .nan => .nan
    | .infinite s => .infinite s
    | .decimal s c e => ofSingleRank s (Reading.rank .single c e)

/-- The written form of a number without its sign, by rank. -/
def magnitudeText (rank : Nat) : List Char :=
  if rank = 0 then ['0']
  else
    let (c, t) := Number.shortest .up rank
    Number.positional c t

/-- The written form of a number. -/
def text : Binary64 → List Char
  | nan => "NaN".toList
  | infinite true => "-inf".toList
  | infinite false => "inf".toList
  | finite true r => '-' :: magnitudeText r
  | finite false r => magnitudeText r

/-- The written form of a number in a statement. -/
def sql : Binary64 → List Char
  | nan => "nan".toList
  | x => x.text

end Binary64

end ColumnStore
