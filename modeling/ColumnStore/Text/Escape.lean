import ColumnStore.Text.Blank

/-!
# Escapes

How text is written inside quotes, and how it is read back.

A string is written between single quotes; a quote, a backslash and six control
characters inside it are preceded by a backslash, so that the quoted form ends
at its first quote that no backslash precedes. A name is written between
backticks, where only the backtick and the backslash are escaped. Reading
accepts more than writing produces: a quote may also be doubled, and a
backslash may precede any character.

## Main definitions

* `escape`, `quote`: The inside of a quoted string, and the whole of it.
* `quoteName`: A name between backticks.
* `unescapeChar`: What a backslash and the character after it stand for.
* `readQuoted`: A quoted string at the start of a text.
-/

namespace ColumnStore

namespace Text

/-- The escaped form of one character of a string. -/
def escapeChar (c : Char) : List Char :=
  match c with
  | '\\' => ['\\', '\\']
  | '\x27' => ['\\', '\x27']
  | '\x08' => ['\\', 'b']
  | '\x0c' => ['\\', 'f']
  | '\r' => ['\\', 'r']
  | '\n' => ['\\', 'n']
  | '\t' => ['\\', 't']
  | '\x00' => ['\\', '0']
  | c => [c]

/-- The inside of a quoted string. -/
def escape (s : List Char) : List Char :=
  s.flatMap escapeChar

/-- A string as it is written in a statement. -/
def quote (s : List Char) : List Char :=
  '\x27' :: (escape s ++ ['\x27'])

/-- The escaped form of one character of a name. -/
def escapeNameChar (c : Char) : List Char :=
  match c with
  | '\x60' => ['\\', '\x60']
  | '\\' => ['\\', '\\']
  | c => [c]

/-- A name as it is written in a statement. -/
def quoteName (s : List Char) : List Char :=
  '\x60' :: (s.flatMap escapeNameChar ++ ['\x60'])

/-- The character that a backslash and `c` stand for. A character without a
    meaning of its own stands for itself. -/
def unescapeChar (c : Char) : Char :=
  match c with
  | 'b' => '\x08'
  | 'f' => '\x0c'
  | 'r' => '\r'
  | 'n' => '\n'
  | 't' => '\t'
  | '0' => '\x00'
  | 'a' => '\x07'
  | 'v' => '\x0b'
  | c => c

/-- Reads the inside of a quoted string and its closing quote. A doubled quote
    stands for one, a backslash for the escape it starts. -/
def readQuotedBody : List Char → Option (List Char × List Char)
  | [] => none
  | '\x27' :: '\x27' :: r => (readQuotedBody r).map fun (body, rest) => ('\x27' :: body, rest)
  | '\x27' :: r => some ([], r)
  | '\\' :: c :: r => (readQuotedBody r).map fun (body, rest) => (unescapeChar c :: body, rest)
  | ['\\'] => none
  | c :: r => (readQuotedBody r).map fun (body, rest) => (c :: body, rest)

/-- Reads a quoted string, giving its content and what follows it. -/
def readQuoted : List Char → Option (List Char × List Char)
  | '\x27' :: r => readQuotedBody r
  | _ => none

end Text

end ColumnStore
