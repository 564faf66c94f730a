import ColumnStore.Literal.Basic
import ColumnStore.Text.Escape
import ColumnStore.Text.Reader

/-!
# Reading Literals

The notation has several spellings of one literal. A list stands in square or
in round brackets, or in round brackets after the word `tuple`; a map stands in
braces with colons, or in round brackets after the word `map` with keys and
values in turn; a scalar stands in quotes or is a bare word. Blanks are allowed
around every item and every mark.

The spellings overlap, since `map`, `tuple` and `NULL` could be bare words. They
are tried in a fixed order with the bare word last, so `map` is a bare word only
where no arguments follow, and `NULLABLE` is one because no bare word may end
inside it.

## Main definitions

* `isBare`: The characters of a bare word.
* `Literal.reader`: A literal at the start of a text.
* `Literal.read`: The literal that a whole text is.
* `LiteralError`: Why a text is refused.
-/

namespace ColumnStore

/-- Why a text is not a literal. -/
inductive LiteralError
  /-- No literal stands at its start. -/
  | malformed (text : String)
  /-- Something follows the literal. -/
  | trailing (rest : String)
  deriving DecidableEq

/-- The message of a refusal. -/
def LiteralError.message : LiteralError → String
  | malformed text => s!"invalid literal '{text}'"
  | trailing rest => s!"unexpected input after literal: '{rest}'"

/-- The characters of a bare word: all but white space, quotes and the marks of
    the notation. -/
def isBare (c : Char) : Bool :=
  !(c = ',' || c = '[' || c = ']' || c = '(' || c = ')' || c = '\x7b' || c = '\x7d' || c = ':'
    || c = '\x27') && !Text.isSpace c

/-- The items of a list as pairs, if their number is even. -/
def pairUp? {α : Type} : List α → Option (List (α × α))
  | [] => some []
  | [_] => none
  | x :: y :: r => (pairUp? r).map ((x, y) :: ·)

namespace Literal

open Text (Reader)

/-- The absence of content: the word `NULL`, or the mark of an absent cell. -/
def nullReader : Reader Literal := fun s =>
  (match Reader.exactly "NULL".toList s with
    | some (_, c :: r) => if isBare c then none else some (null, c :: r)
    | some (_, []) => some (null, [])
    | none => none)
  <|> (Reader.exactly ['\\', 'N'] s).map fun (_, r) => (null, r)

/-- A scalar in quotes. -/
def quotedReader : Reader Literal := fun s =>
  (Text.readQuoted s).map fun (body, r) => (scalar (String.ofList body), r)

/-- A bare word. -/
def bareReader : Reader Literal := fun s =>
  (Reader.while1 isBare s).map fun (word, r) => (scalar (String.ofList word), r)

/-- Items between brackets, with commas between them. -/
def itemsReader (opening closing : Char) (item : Reader Literal) : Reader (List Literal) :=
  Reader.enclosed opening closing (Reader.separated (Reader.char ',') (Reader.spaced item))

/-- A map as a call. -/
def mapCallReader (item : Reader Literal) : Reader Literal := fun s => do
  let (_, r) ← Reader.ignoringCase "map".toList s
  let (items, r) ← itemsReader '(' ')' item (Text.skipBlanks r)
  let entries ← pairUp? items
  pure (map entries, r)

/-- A tuple as a call. -/
def tupleCallReader (item : Reader Literal) : Reader Literal := fun s => do
  let (_, r) ← Reader.ignoringCase "tuple".toList s
  let (items, r) ← itemsReader '(' ')' item (Text.skipBlanks r)
  pure (list items, r)

/-- A map in braces. -/
def bracesReader (item : Reader Literal) : Reader Literal := fun s =>
  (Reader.enclosed '\x7b' '\x7d'
    (Reader.separated (Reader.char ',')
      (Reader.pairOf (Reader.spaced item) (Reader.char ':') (Reader.spaced item))) s).map
    fun (entries, r) => (map entries, r)

/-- A literal whose brackets nest less than `depth` deep. -/
def readerTo : Nat → Reader Literal
  | 0 => fun _ => none
  | depth + 1 => fun s =>
    nullReader s
      <|> quotedReader s
      <|> (itemsReader '[' ']' (readerTo depth) s).map (fun (items, r) => (list items, r))
      <|> mapCallReader (readerTo depth) s
      <|> tupleCallReader (readerTo depth) s
      <|> (itemsReader '(' ')' (readerTo depth) s).map (fun (items, r) => (list items, r))
      <|> bracesReader (readerTo depth) s
      <|> bareReader s

/-- A literal at the start of a text. Every level of nesting takes a bracket, so
    the length of the text bounds the depth. -/
def reader : Reader Literal := fun s =>
  readerTo (s.length + 1) s

/-- The literal that a whole text is, blanks at its ends aside. -/
def read (s : List Char) : Except LiteralError Literal :=
  match Reader.spaced reader s with
  | some (x, []) => .ok x
  | some (_, c :: r) => .error (.trailing (String.ofList (c :: r)))
  | none => .error (.malformed (String.ofList s))

end Literal

end ColumnStore
