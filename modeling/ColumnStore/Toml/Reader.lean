import ColumnStore.Toml.Moment
import ColumnStore.Toml.Number
import ColumnStore.Toml.Text

/-!
# Reading TOML

A document is a sequence of lines, each of which is blank, a header or a key
with its value; a comment may end any of them. A header says to which table the
keys below it belong. Inside brackets there may be line ends and comments, inside
braces there may not, and only brackets may have a comma after their last value.
Brackets and braces nest up to a fixed depth, and keys have as many names at
most.

## Main definitions

* `Toml.value`: A value.
* `Toml.Line`: A line of a document.
* `Toml.line`: A line at the start of a text.
* `Toml.add`: What a line adds to a document.
* `Toml.read?`: The document of a text.
-/

namespace ColumnStore

namespace Toml

open ColumnStore.Text (Reader)

/-- How deep values nest, and how many names a key has. -/
def maxDepth : Nat := 79

/-- A comment or nothing. -/
def skipComment (s : List Char) : List Char :=
  match s with
  | '#' :: r => r.dropWhile Text.isPlain
  | s => s

/-- Spaces, tabs, line ends and comments, perhaps none. Every step takes at
    least one character. -/
def skipInBrackets : Nat → List Char → List Char
  | 0, s => s
  | n + 1, s =>
    match s with
    | '#' :: r => skipInBrackets n (r.dropWhile Text.isPlain)
    | s =>
      match Text.lineEnd s with
      | some (_, r) => skipInBrackets n r
      | none =>
        match s with
        | c :: r => if Text.isGap c then skipInBrackets n r else c :: r
        | [] => []

/-- An item among spaces, tabs, line ends and comments. -/
def inBrackets {α : Type} (item : Reader α) : Reader α := fun s => do
  let (x, r) ← item (skipInBrackets s.length s)
  pure (x, skipInBrackets r.length r)

/-- An item among spaces and tabs. -/
def inLine {α : Type} (item : Reader α) : Reader α := fun s => do
  let (x, r) ← item (Text.skipGap s)
  pure (x, Text.skipGap r)

/-- A key: names with dots between them. The names before the last are those of
    tables. -/
def key : Reader (List String × String) := fun s => do
  let (names, r) ← Reader.separated1 (Reader.char '.') (inLine Text.name) s
  let last ← names.getLast?
  if names.length ≤ maxDepth then pure ((names.dropLast, last), r) else none

/-- Values inside brackets, and the closing bracket. -/
def arrayBody (item : Reader Toml) : Reader Toml := fun s => do
  let (items, r) ← Reader.separated (Reader.char ',') (inBrackets item) s
  -- One comma may follow the last item.
  let r := match r with
    | ',' :: r => if items.isEmpty then ',' :: r else r
    | r => r
  let (_, r) ← Reader.char ']' (skipInBrackets r.length r)
  pure (.array items, r)

/-- A table of keys with their values, if no two of them are at odds. -/
def ofKeys (keys : List ((List String × String) × Toml)) : Option Toml := do
  let t ← keys.foldlM (fun t (k, v) => assign k.1 k.2 v t) (emptyTable .header)
  match t with
  | table _ entries => some (table .braces entries)
  | _ => none

/-- Keys with their values inside braces, and the closing brace. -/
def tableBody (item : Reader Toml) : Reader Toml := fun s => do
  let (keys, r) ← Reader.separated (Reader.char ',')
    (Reader.pairOf key (Reader.char '=') (inLine item)) s
  let (_, r) ← Reader.char '\x7d' (Text.skipGap r)
  pure (← ofKeys keys, r)

/-- A truth value. -/
def truth : Reader Toml := fun s =>
  (Reader.exactly "true".toList s).map (fun (_, r) => (.bool true, r))
    <|> (Reader.exactly "false".toList s).map (fun (_, r) => (.bool false, r))

/-- A value without parts. -/
def scalar : Reader Toml := fun s =>
  (Text.string s).map (fun (t, r) => (.string t, r)) <|> Moment.moment s <|> Number.number s
    <|> truth s

/-- A value whose brackets and braces nest at most so deep. -/
def value : Nat → Reader Toml
  | 0 => scalar
  | depth + 1 => fun s =>
    match s with
    | '[' :: r => arrayBody (value depth) r
    | '\x7b' :: r => tableBody (value depth) r
    | s => scalar s

/-- A line of a document. -/
inductive Line
  /-- Nothing, or a comment. -/
  | blank
  /-- The header of a table. -/
  | header (path : List String) (name : String)
  /-- The header of one of several tables of the same name. -/
  | element (path : List String) (name : String)
  /-- A value under a key. -/
  | entry (path : List String) (name : String) (v : Toml)

/-- The end of a line after its content. -/
def lineRest : Reader Unit := fun s =>
  match skipComment (Text.skipGap s) with
  | [] => some ((), [])
  | r => Text.lineEnd r

/-- The content of a line. -/
def content : Reader Line := fun s =>
  match s with
  | '[' :: '[' :: r => do
    let ((path, name), r) ← key r
    let (_, r) ← Reader.exactly [']', ']'] r
    pure (.element path name, r)
  | '[' :: r => do
    let ((path, name), r) ← key r
    let (_, r) ← Reader.char ']' r
    pure (.header path name, r)
  | '#' :: _ => some (.blank, s)
  | '\n' :: _ => some (.blank, s)
  | '\r' :: _ => some (.blank, s)
  | [] => some (.blank, [])
  | s => do
    let (((path, name), v), r) ← Reader.pairOf key (Reader.char '=') (inLine (value maxDepth)) s
    pure (.entry path name v, r)

/-- A line at the start of a text, with its end. -/
def line : Reader Line := fun s => do
  let (l, r) ← content (Text.skipGap s)
  let (_, r) ← lineRest r
  pure (l, r)

/-- All lines of a text. Every line but the last takes at least its end. -/
def lines : Nat → List Char → Option (List Line)
  | _, [] => some []
  | 0, _ :: _ => none
  | n + 1, s => do
    let (l, r) ← line s
    (lines n r).map (l :: ·)

/-- A document while it is read: what has been said, and the table to which the
    keys belong. -/
structure Draft where
  /-- What has been said. -/
  root : Toml
  /-- The path to the table of the last header. -/
  current : List String

/-- What a line adds to a document. -/
def add (d : Draft) : Line → Option Draft
  | .blank => some d
  | .header path name =>
    (within false (openTable name) path d.root).map fun root => ⟨root, path ++ [name]⟩
  | .element path name =>
    (within false (openElement name) path d.root).map fun root => ⟨root, path ++ [name]⟩
  | .entry path name v =>
    (within false (assign path name v) d.current d.root).map fun root => ⟨root, d.current⟩

/-- A text without a mark of its byte order at the start. -/
def skipByteOrderMark (s : List Char) : List Char :=
  match s with
  | c :: r => if c.toNat = 0xFEFF then r else c :: r
  | [] => []

/-- The document of a text. -/
def read? (s : List Char) : Option Toml := do
  let s := skipByteOrderMark s
  let ls ← lines (s.length + 1) s
  let d ← ls.foldlM add ⟨emptyTable .header, []⟩
  pure d.root

end Toml

end ColumnStore
