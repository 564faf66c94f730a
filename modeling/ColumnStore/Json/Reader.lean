import ColumnStore.Json.Basic
import ColumnStore.Keyed
import ColumnStore.Number.Real
import ColumnStore.Number.Hex

/-!
# Reading JSON

The grammar is the standard one: blanks around every token, no comma before a
closing bracket, no zero in front of other digits, no control character inside
a string, and code units of a surrogate pair only in pairs. Arrays and objects
nest up to a fixed depth. Of several members with one key the last is kept.

A number without point and exponent is whole if a 64-bit word has room for it.
Any other number is a floating-point number, and is put together from as many
leading digits as an unsigned word has room for and a power of ten. The two are
combined by one multiplication or division in double precision, so the result
can be a neighbour of the number nearest to the text. A number that is too large
is refused.

## Main definitions

* `Json.Reader.number`: A number.
* `Json.Reader.stringBody`: The inside of a string.
* `Json.read?`: The document of a text.
-/

namespace ColumnStore

namespace Json

namespace Reader

open Text (Reader)

/-- The double-precision number nearest to a power of ten. -/
def powerOfTen (n : Nat) : Nat :=
  BinaryFormat.double.nearestRank (Nat.pow 10 n) 1

/-- The rank of a finite number that is not below zero. -/
def rank? : Binary64 → Option Nat
  | .finite _ r => some r
  | _ => none

/-- Divides a number by a power of ten. The largest power that is a number is
    used as often as needed, `steps` times at most. -/
def scaleDown : Nat → Nat → Nat → Option Nat
  | 0, r, _ => some r
  | steps + 1, r, n =>
    if r = 0 then some 0
    else if n ≤ 308 then rank? (Binary64.quotient r (powerOfTen n))
    else (rank? (Binary64.quotient r (powerOfTen 308))).bind fun r => scaleDown steps r (n - 308)

/-- The rank of leading digits times a power of ten. Three divisions by the
    largest power of ten take any digits to zero. -/
def scaled? (significand : Nat) (exponent : Int) : Option Nat :=
  let r := BinaryFormat.double.nearestRank significand 1
  if exponent < 0 then scaleDown 4 r (-exponent).toNat
  else if r = 0 && 308 < exponent then some 0
  else if 308 < exponent then none
  else rank? (Binary64.product r (powerOfTen exponent.toNat))

/-- The floating-point number of leading digits and a power of ten. -/
def real? (negative : Bool) (significand : Nat) (exponent : Int) : Option Json :=
  (scaled? significand exponent).map fun r => .real (Binary64.ofRank negative r)

/-- The digits after a mark for an exponent, with an optional sign in front. An
    exponent that a 32-bit word has no room for makes the number zero or too
    large. -/
def exponent (negative : Bool) (significand : Nat) (place : Int) : Reader Json := fun s => do
  let (below, s) := match s with
    | '-' :: s => (true, s)
    | '+' :: s => (false, s)
    | s => (false, s)
  let (ds, r) ← Reader.while1 Char.isDigit s
  let n := Number.ofDigits ds
  if n ≤ 0x7FFFFFFF then
    let e := if below then place - n else place + n
    pure (← real? negative significand (max (-0x80000000) (min 0x7FFFFFFF e)), r)
  else if significand ≠ 0 && !below then none
  else pure (.real (Binary64.ofRank negative 0), r)

/-- What may follow the digits of a floating-point number: an exponent, or
    nothing. -/
def ending (negative : Bool) (significand : Nat) (place : Int) : Reader Json := fun s =>
  match s with
  | 'e' :: r => exponent negative significand place r
  | 'E' :: r => exponent negative significand place r
  | r => (real? negative significand place).map (·, r)

/-- Takes digits while an unsigned word has room for them, counting them. -/
def gather (significand count : Nat) : List Char → Nat × Nat × List Char
  | [] => (significand, count, [])
  | c :: r =>
    if c.isDigit && 10 * significand + Number.digitValue c < UInt64.size then
      gather (10 * significand + Number.digitValue c) (count + 1) r
    else (significand, count, c :: r)

/-- The digits after a point, of which there must be one that is not merely
    skipped for want of room, and what follows them. -/
def places (negative : Bool) (significand : Nat) (place : Int) : Reader Json := fun s =>
  let (significand, count, r) := gather significand 0 s
  match r with
  | c :: _ =>
    if c.isDigit then
      ending negative significand (place - count) (r.dropWhile Char.isDigit)
    else if count = 0 then none
    else ending negative significand (place - count) r
  | [] => if count = 0 then none else ending negative significand (place - count) []

/-- What follows the whole part of a number with more digits than an unsigned
    word has room for; the rest of the digits only moves the point. -/
def long (negative : Bool) (significand : Nat) (s : List Char) : Option (Json × List Char) :=
  let skipped := s.takeWhile Char.isDigit
  match s.dropWhile Char.isDigit with
  | '.' :: r => places negative significand skipped.length r
  | r => ending negative significand skipped.length r

/-- A number after its sign. A zero below zero is not whole, nor is a number
    below the range of signed words. -/
def unsigned (negative : Bool) : Reader Json := fun s => do
  -- A zero at the start stands alone.
  let (significand, r) ← match s with
    | '0' :: r => some (0, r)
    | s => do
      let (_, _) ← Reader.while1 Char.isDigit s
      let (significand, _, r) := gather 0 0 s
      some (significand, r)
  match r with
  | '.' :: r => places negative significand 0 r
  | 'e' :: r => exponent negative significand 0 r
  | 'E' :: r => exponent negative significand 0 r
  | c :: _ =>
    -- A digit is left for want of room, or it follows a zero and is refused.
    if c.isDigit then (if significand = 0 then none else long negative significand r)
    else pure (whole significand, r)
  | [] => pure (whole significand, [])
where
  /-- The number of digits alone. -/
  whole (n : Nat) : Json :=
    if !negative then .whole n
    else if n = 0 || 0x8000000000000000 < n then .real (Binary64.nearest true n 1)
    else .whole (-(n : Int))

/-- A number. -/
def number : Reader Json := fun s =>
  match s with
  | '-' :: r => unsigned true r
  | r => unsigned false r

/-- The code unit of four hexadecimal digits. -/
def codeUnit (s : List Char) : Option (Nat × List Char) := do
  let four := s.take 4
  if four.length = 4 then pure (← Number.ofHexDigits? four, s.drop 4) else none

/-- The character of one code unit, or of two that are a pair. -/
def codePoint (s : List Char) : Option (Char × List Char) := do
  let (u, r) ← codeUnit s
  -- The second unit of a pair does not come first.
  if 0xDC00 ≤ u && u ≤ 0xDFFF then none
  else if 0xD800 ≤ u && u ≤ 0xDBFF then
    match r with
    | '\\' :: 'u' :: r => do
      let (v, r) ← codeUnit r
      if 0xDC00 ≤ v && v ≤ 0xDFFF then
        pure (Char.ofNat (0x10000 + (u - 0xD800) * 0x400 + (v - 0xDC00)), r)
      else none
    | _ => none
  else pure (Char.ofNat u, r)

/-- The character of an escape, after its backslash. -/
def escaped : Reader Char := fun s =>
  match s with
  | '"' :: r => some ('"', r)
  | '\\' :: r => some ('\\', r)
  | '/' :: r => some ('/', r)
  | 'b' :: r => some ('\x08', r)
  | 'f' :: r => some ('\x0c', r)
  | 'n' :: r => some ('\n', r)
  | 'r' :: r => some ('\r', r)
  | 't' :: r => some ('\t', r)
  | 'u' :: r => codePoint r
  | _ => none

/-- The characters of a string and its closing quote. Every step takes at least
    one character, so the length of the text bounds their number. -/
def stringBody : Nat → Reader (List Char)
  | 0 => fun _ => none
  | n + 1 => fun s =>
    match s with
    | [] => none
    | '"' :: r => some ([], r)
    | '\\' :: r => do
      let (c, r) ← escaped r
      let (cs, r) ← stringBody n r
      pure (c :: cs, r)
    | c :: r =>
      if c.toNat < 0x20 then none
      else (stringBody n r).map fun (cs, r) => (c :: cs, r)

/-- A string. -/
def string : Reader String := fun s =>
  match s with
  | '"' :: r => (stringBody (r.length + 1) r).map fun (cs, r) => (String.ofList cs, r)
  | _ => none

/-- A document that is neither an array nor an object. -/
def scalar : Reader Json := fun s =>
  (Reader.exactly "null".toList s).map (fun (_, r) => (.null, r))
    <|> (Reader.exactly "true".toList s).map (fun (_, r) => (.bool true, r))
    <|> (Reader.exactly "false".toList s).map (fun (_, r) => (.bool false, r))
    <|> (string s).map (fun (t, r) => (.string t, r))
    <|> number s

/-- A document whose arrays and objects are nested at most so deep. -/
def document : Nat → Reader Json
  | 0 => scalar
  | depth + 1 => fun s =>
    scalar s
      <|> (Reader.enclosed '[' ']' (Reader.separated (Reader.mark ',') (document depth)) s).map
        (fun (xs, r) => (.array xs, r))
      <|> (Reader.enclosed '\x7b' '\x7d' (Reader.separated (Reader.mark ',')
          (Reader.pairOf string (Reader.mark ':') (document depth))) s).map
        (fun (ms, r) => (.object (ms.foldl (fun o (k, x) => Keyed.insert k x o) []), r))

end Reader

/-- How deep arrays and objects may nest. -/
def maxDepth : Nat := 127

/-- The document of a text. -/
def read? (s : List Char) : Option Json :=
  Text.Reader.all (Text.Reader.spaced (Reader.document maxDepth)) s

end Json

end ColumnStore
