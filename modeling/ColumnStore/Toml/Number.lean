import ColumnStore.Number.Hex
import ColumnStore.Toml.Basic
import ColumnStore.Text.Reader

/-!
# Numbers in TOML

A whole number has no zero in front of other digits, and single low lines may
stand between its digits. After a mark for base sixteen, eight or two there is
no sign and no such rule about zeros. Whole numbers are words of 64 binary
digits. A floating-point number has digits after its point, or an exponent, or
both; one that is too large above zero is refused.

## Main definitions

* `Toml.Number.digitRun`: Digits with low lines between them.
* `Toml.Number.number`: A number of any form.
-/

namespace ColumnStore

namespace Toml.Number

open ColumnStore.Text (Reader)

/-- Digits that continue a run, with single low lines between them. -/
def moreDigits (p : Char → Bool) : List Char → List Char × List Char
  | [] => ([], [])
  | '_' :: c :: r =>
    if p c then
      let (ds, r) := moreDigits p r
      (c :: ds, r)
    else ([], '_' :: c :: r)
  | c :: r =>
    if p c then
      let (ds, r) := moreDigits p r
      (c :: ds, r)
    else ([], c :: r)

/-- One digit or more, with single low lines between them. -/
def digitRun (p : Char → Bool) : Reader (List Char)
  | [] => none
  | c :: r =>
    if p c then
      let (ds, r) := moreDigits p r
      some (c :: ds, r)
    else none

/-- A sign or nothing. -/
def sign (s : List Char) : List Char × List Char :=
  match s with
  | '+' :: r => (['+'], r)
  | '-' :: r => (['-'], r)
  | r => ([], r)

/-- The digits of a whole number in base ten, with its sign. -/
def decimal : Reader (List Char) := fun s =>
  let (sign, r) := sign s
  match r with
  | '0' :: r => some (sign ++ ['0'], r)
  | r => (digitRun Char.isDigit r).map fun (ds, r) => (sign ++ ds, r)

/-- An exponent with its mark. -/
def exponent : Reader (List Char) := fun s =>
  match s with
  | c :: r =>
    if c = 'e' || c = 'E' then
      let (sign, r) := sign r
      (digitRun Char.isDigit r).map fun (ds, r) => ('e' :: (sign ++ ds), r)
    else none
  | [] => none

/-- The digits after a point with the point. -/
def fraction : Reader (List Char) := fun s =>
  match s with
  | '.' :: r => (digitRun Char.isDigit r).map fun (ds, r) => ('.' :: ds, r)
  | _ => none

/-- What follows the whole part of a floating-point number. -/
def realEnding : Reader (List Char) := fun s =>
  match fraction s with
  | some (f, r) =>
    match exponent r with
    | some (e, r) => some (f ++ e, r)
    | none => some (f, r)
  | none => exponent s

/-- Whether a whole number fits a word of 64 binary digits. -/
def fits (n : Int) : Bool :=
  -0x8000000000000000 ≤ n && n ≤ 0x7FFFFFFFFFFFFFFF

/-- A number in base ten. -/
def plain : Reader Toml := fun s => do
  let (whole, r) ← decimal s
  match realEnding r with
  | some (ending, r) =>
    let x ← Binary64.read? (whole ++ ending)
    if x = .infinite false then none else pure (.float x, r)
  | none =>
    let n ← ColumnStore.Number.integer? whole
    if fits n then pure (.integer n, r) else none

/-- The digits of a base. -/
def isDigitOf (base : Nat) (c : Char) : Bool :=
  match ColumnStore.Number.hexValue? c with
  | some v => v < base
  | none => false

/-- The number that digits of a base denote. -/
def ofDigitsIn (base : Nat) (s : List Char) : Nat :=
  s.foldl (fun n c => base * n + (ColumnStore.Number.hexValue? c).getD 0) 0

/-- The digits of a whole number after the mark of a base. -/
def based (base : Nat) : Reader Toml := fun s => do
  let (ds, r) ← digitRun (isDigitOf base) s
  let n := ofDigitsIn base ds
  if fits n then pure (.integer n, r) else none

/-- The floating-point numbers without digits. -/
def special : Reader Toml := fun s =>
  let (sign, r) := sign s
  match r with
  | 'i' :: 'n' :: 'f' :: r => some (.float (.infinite (sign = ['-'])), r)
  | 'n' :: 'a' :: 'n' :: r => some (.float .nan, r)
  | _ => none

/-- A number of any form. -/
def number : Reader Toml := fun s =>
  match s with
  | '0' :: 'x' :: r => based 16 r
  | '0' :: 'o' :: r => based 8 r
  | '0' :: 'b' :: r => based 2 r
  | s => plain s <|> special s

end Toml.Number

end ColumnStore
