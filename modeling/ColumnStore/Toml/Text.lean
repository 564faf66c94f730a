import ColumnStore.Number.Hex
import ColumnStore.Text.Reader

/-!
# Texts in TOML

A text stands between quotes, single or double, or between three of them. Inside
double quotes a backslash starts an escape; inside single quotes it stands for
itself. Between three quotes there may be line ends, of which one at the start
does not count, and up to two quotes in a row, also at the end. A backslash at
the end of a line there takes away all blanks and line ends up to the next
character.

## Main definitions

* `Toml.Text.isPlain`: The characters that may stand in a text or a comment.
* `Toml.Text.string`: A text between quotes of any kind.
* `Toml.Text.name`: A single name of a key.
-/

namespace ColumnStore

namespace Toml.Text

open ColumnStore.Text (Reader)

/-- The characters that may stand in a text or a comment: no control characters
    of ASCII except the tab. -/
def isPlain (c : Char) : Bool :=
  c = '\t' || (0x20 ≤ c.toNat && c.toNat ≠ 0x7F)

/-- A space or a tab. -/
def isGap (c : Char) : Bool :=
  c = ' ' || c = '\t'

/-- Text without leading spaces and tabs. -/
def skipGap (s : List Char) : List Char :=
  s.dropWhile isGap

/-- A line end. -/
def lineEnd : Reader Unit := fun s =>
  match s with
  | '\n' :: r => some ((), r)
  | '\r' :: '\n' :: r => some ((), r)
  | _ => none

/-- Whether nothing but spaces and tabs stands before the next line end. -/
def endsLine (s : List Char) : Bool :=
  (lineEnd (skipGap s)).isSome

/-- The character of a number in hexadecimal digits, if it is one. -/
def scalar? (digits : List Char) : Option Char := do
  let n ← Number.ofHexDigits? digits
  if n < 0xD800 || (0xDFFF < n && n < 0x110000) then some (Char.ofNat n) else none

/-- The character that a backslash and another character stand for. -/
def escape? (c : Char) : Option Char :=
  match c with
  | 'b' => some '\x08'
  | 't' => some '\t'
  | 'n' => some '\n'
  | 'f' => some '\x0c'
  | 'r' => some '\r'
  | '"' => some '"'
  | '\\' => some '\\'
  | _ => none

/-- A character before the rest of a text. -/
def push (c : Char) : Option (List Char × List Char) → Option (List Char × List Char) :=
  Option.map fun (body, rest) => (c :: body, rest)

/-- The inside of a text in double quotes and its closing quote. -/
def basicBody : Reader (List Char)
  | [] => none
  | '"' :: r => some ([], r)
  | '\\' :: 'u' :: a :: b :: c :: d :: r => do
    let x ← scalar? [a, b, c, d]
    push x (basicBody r)
  | '\\' :: 'U' :: a :: b :: c :: d :: e :: f :: g :: h :: r => do
    let x ← scalar? [a, b, c, d, e, f, g, h]
    push x (basicBody r)
  | '\\' :: c :: r => do
    let x ← escape? c
    push x (basicBody r)
  | c :: r => if isPlain c && c ≠ '\\' then push c (basicBody r) else none

/-- The inside of a text in single quotes and its closing quote. -/
def literalBody : Reader (List Char)
  | [] => none
  | '\x27' :: r => some ([], r)
  | c :: r => if isPlain c then push c (literalBody r) else none

/-- What follows three quotes in a row: up to two more belong to the text. -/
def closing (quote : Char) : List Char → List Char × List Char
  | a :: b :: r =>
    if a = quote then if b = quote then ([a, b], r) else ([a], b :: r) else ([], a :: b :: r)
  | [a] => if a = quote then ([a], []) else ([], [a])
  | [] => ([], [])

/-- The inside of a text in three double quotes and its closing quotes. While
    `skipping`, spaces, tabs and line ends are left out. -/
def basicBlock (skipping : Bool) : Reader (List Char)
  | [] => none
  | '"' :: '"' :: '"' :: r => some (closing '"' r)
  | '\\' :: 'u' :: a :: b :: c :: d :: r => do
    let x ← scalar? [a, b, c, d]
    push x (basicBlock false r)
  | '\\' :: 'U' :: a :: b :: c :: d :: e :: f :: g :: h :: r => do
    let x ← scalar? [a, b, c, d, e, f, g, h]
    push x (basicBlock false r)
  | '\\' :: c :: r =>
    -- A backslash at the end of a line joins it to the next text.
    if endsLine (c :: r) then basicBlock true (c :: r)
    else do
      let x ← escape? c
      push x (basicBlock false r)
  | '\r' :: '\n' :: r => if skipping then basicBlock true r else push '\n' (basicBlock false r)
  | '\n' :: r => if skipping then basicBlock true r else push '\n' (basicBlock false r)
  | c :: r =>
    if skipping && isGap c then basicBlock true r
    else if isPlain c && c ≠ '\\' then push c (basicBlock false r)
    else none

/-- The inside of a text in three single quotes and its closing quotes. -/
def literalBlock : Reader (List Char)
  | [] => none
  | '\x27' :: '\x27' :: '\x27' :: r => some (closing '\x27' r)
  | '\r' :: '\n' :: r => push '\n' (literalBlock r)
  | '\n' :: r => push '\n' (literalBlock r)
  | c :: r => if isPlain c then push c (literalBlock r) else none

/-- A text without a line end at its start. -/
def skipLineEnd (s : List Char) : List Char :=
  match lineEnd s with
  | some (_, r) => r
  | none => s

/-- A text between single quotes of either kind. -/
def quoted : Reader (List Char)
  | '"' :: r => basicBody r
  | '\x27' :: r => literalBody r
  | _ => none

/-- A text between quotes of any kind. -/
def string : Reader String := fun s =>
  let body := match s with
    | '"' :: '"' :: '"' :: r => basicBlock false (skipLineEnd r)
    | '\x27' :: '\x27' :: '\x27' :: r => literalBlock (skipLineEnd r)
    | s => quoted s
  body.map fun (cs, r) => (String.ofList cs, r)

/-- The characters of a name without quotes. -/
def isNameChar (c : Char) : Bool :=
  c.isAlphanum || c = '-' || c = '_'

/-- A single name of a key. -/
def name : Reader String := fun s =>
  match s with
  | '"' :: _ => (quoted s).map fun (cs, r) => (String.ofList cs, r)
  | '\x27' :: _ => (quoted s).map fun (cs, r) => (String.ofList cs, r)
  | s => (Reader.while1 isNameChar s).map fun (cs, r) => (String.ofList cs, r)

end Toml.Text

end ColumnStore
