import ColumnStore.Number.Hex
import ColumnStore.Json.Basic
import ColumnStore.Number.Shortest

/-!
# Writing JSON

The compact text of a document: no blanks, members in the order of their keys,
and every number with the fewest digits that read back as it.

A number that is not whole is positional while the place of its first digit is
between the fifth after the point and the sixteenth before it, and then has at
least one digit after the point; outside of that range it has an exponent with
its sign. Of two equally near decimals the one with the even last digit is
written. A string escapes quotes, backslashes and control characters only.

## Main definitions

* `Json.realText`: The written form of a number.
* `Json.stringText`: The written form of a string.
* `Json.text`: The written form of a document.
-/

namespace ColumnStore

namespace Json

/-- The written form of a positive number, by rank. -/
def magnitudeText (rank : Nat) : List Char :=
  let (c, t) := Number.shortest .even rank
  let ds := Number.digits c
  let place := t + ds.length - 1
  if -5 ≤ place && place < 16 then
    Number.positional c t ++ (if 0 ≤ t then ['.', '0'] else [])
  else
    let coefficient := match ds with
      | d :: e :: r => d :: '.' :: e :: r
      | r => r
    coefficient ++ 'e' :: (if place < 0 then '-' else '+') :: Number.digits place.natAbs

/-- The written form of a number that is not whole. One that has no digits is
    written as `null`. -/
def realText : Binary64 → List Char
  | .finite negative rank =>
    (if negative then ['-'] else [])
      ++ if rank.val = 0 then "0.0".toList else magnitudeText rank
  | _ => "null".toList

/-- The written form of one character of a string. -/
def charText (c : Char) : List Char :=
  match c with
  | '"' => ['\\', '"']
  | '\\' => ['\\', '\\']
  | '\x08' => ['\\', 'b']
  | '\x0c' => ['\\', 'f']
  | '\n' => ['\\', 'n']
  | '\r' => ['\\', 'r']
  | '\t' => ['\\', 't']
  | c => if c.toNat < 0x20 then '\\' :: 'u' :: Number.hexPadded 4 c.toNat else [c]

/-- The written form of a string. -/
def stringText (s : String) : List Char :=
  '"' :: (s.toList.flatMap charText ++ ['"'])

mutual

/-- The written form of a document. -/
def text : Json → List Char
  | null => "null".toList
  | bool true => "true".toList
  | bool false => "false".toList
  | whole n => Number.signed n
  | real x => realText x
  | string s => stringText s
  | array items => '[' :: (itemsText items ++ [']'])
  | object members => '\x7b' :: (membersText members ++ ['\x7d'])

/-- The written form of the items of an array. -/
def itemsText : List Json → List Char
  | [] => []
  | [x] => text x
  | x :: xs => text x ++ ',' :: itemsText xs

/-- The written form of the members of an object. -/
def membersText : List (String × Json) → List Char
  | [] => []
  | [(k, x)] => stringText k ++ ':' :: text x
  | (k, x) :: ms => stringText k ++ ':' :: text x ++ ',' :: membersText ms

end

end Json

end ColumnStore
