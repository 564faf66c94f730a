import ColumnStore.Text.Blank

/-!
# Whole Numbers

Decimal text of whole numbers: plain digits, digits padded to a width, and the
optional sign that each reader allows.

A number may carry a plus sign wherever it may carry a minus sign, and also
where only the numbers from zero up are allowed. Only the ten ASCII digits
count. Leading zeros are allowed, so the reader accepts more than the printer
writes.

## Main definitions

* `digits`, `padded`: The digits of a number, and at least a width of them.
* `signed`: The digits of an integer after its sign.
* `ofDigits?`: The number that a nonempty run of digits denotes.
* `natural?`, `integer?`: A whole text as a number.
-/

namespace ColumnStore

namespace Number

/-- The decimal digits of a number. -/
def digits (n : Nat) : List Char :=
  Nat.toDigits 10 n

/-- The decimal digits of a number, with zeros in front up to a width. -/
def padded (width n : Nat) : List Char :=
  List.replicate (width - (digits n).length) '0' ++ digits n

/-- The decimal digits of an integer after its sign. -/
def signed (n : Int) : List Char :=
  if n < 0 then '-' :: digits n.natAbs else digits n.natAbs

/-- The value of one digit. -/
def digitValue (c : Char) : Nat :=
  c.toNat - '0'.toNat

/-- The number that a run of digits denotes, highest place first. -/
def ofDigits (s : List Char) : Nat :=
  s.foldl (fun n c => 10 * n + digitValue c) 0

/-- The number that a text of digits denotes. The text must not be empty. -/
def ofDigits? (s : List Char) : Option Nat :=
  if s ≠ [] ∧ s.all Char.isDigit then some (ofDigits s) else none

/-- A number from zero up, with a plus sign allowed. -/
def natural? : List Char → Option Nat
  | '+' :: s => ofDigits? s
  | s => ofDigits? s

/-- A number with either sign allowed. -/
def integer? : List Char → Option Int
  | '-' :: s => (ofDigits? s).map fun n => -(n : Int)
  | '+' :: s => (ofDigits? s).map Int.ofNat
  | s => (ofDigits? s).map Int.ofNat

/-- A number from zero up below a limit. -/
def naturalBelow? (limit : Nat) (s : List Char) : Option Nat :=
  (natural? s).filter (· < limit)

/-- A number with either sign between two bounds, both included. -/
def integerBetween? (lo hi : Int) (s : List Char) : Option Int :=
  (integer? s).filter fun n => lo ≤ n && n ≤ hi

end Number

end ColumnStore
