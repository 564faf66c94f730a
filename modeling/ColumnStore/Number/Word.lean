/-!
# Words

Integers of 8, 16, 32 or 64 binary digits, with or without a sign.

## Main definitions

* `WordType`: A width and whether there is a sign.
* `WordType.lower`, `WordType.upper`: The least and the largest integer.
* `WordType.holds`: Whether an integer is in range.
-/

namespace ColumnStore

/-- The number of binary digits of a word. -/
inductive Width
  | w8
  | w16
  | w32
  | w64
  deriving DecidableEq

/-- The width as a number. -/
def Width.bits : Width → Nat
  | w8 => 8
  | w16 => 16
  | w32 => 32
  | w64 => 64

/-- A range of integers. -/
structure WordType where
  /-- Whether there are integers below zero. -/
  signed : Bool
  /-- The number of binary digits. -/
  width : Width
  deriving DecidableEq

namespace WordType

/-- The least integer. -/
def lower (w : WordType) : Int :=
  if w.signed then -(Nat.pow 2 (w.width.bits - 1) : Int) else 0

/-- The largest integer. -/
def upper (w : WordType) : Int :=
  if w.signed then (Nat.pow 2 (w.width.bits - 1) : Int) - 1 else (Nat.pow 2 w.width.bits : Int) - 1

/-- Whether an integer is in range. -/
def holds (w : WordType) (n : Int) : Bool :=
  w.lower ≤ n && n ≤ w.upper

end WordType

end ColumnStore
