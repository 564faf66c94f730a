import ColumnStore.Text.Shown

/-!
# Literals

The composite values of a result are written in the same notation as literals
of a statement. A literal is what that notation says before any type is known:
the content of every scalar is still text, and an array cannot be told from a
tuple.

## Main definitions

* `Literal`: What a text in literal notation says.
* `Literal.shown`: A literal in a form for messages.
-/

namespace ColumnStore

/-- What a text in literal notation says. -/
inductive Literal
  /-- The absence of content. -/
  | null
  /-- The content of quotes, or a bare word. -/
  | scalar (s : String)
  /-- The items of an array or of a tuple. -/
  | list (items : List Literal)
  /-- The keys and values of a map. -/
  | map (entries : List (Literal × Literal))

namespace Literal

mutual

/-- A literal in a form for messages. -/
def shown : Literal → List Char
  | null => "Null".toList
  | scalar s => "Scalar(".toList ++ Text.showQuoted s.toList ++ [')']
  | list items => "List([".toList ++ shownItems items ++ [']', ')']
  | map entries => "Map([".toList ++ shownEntries entries ++ [']', ')']

/-- Literals with commas between them. -/
def shownItems : List Literal → List Char
  | [] => []
  | [x] => shown x
  | x :: xs => shown x ++ ',' :: ' ' :: shownItems xs

/-- Pairs of literals with commas between them. -/
def shownEntries : List (Literal × Literal) → List Char
  | [] => []
  | [(k, x)] => '(' :: shown k ++ ',' :: ' ' :: shown x ++ [')']
  | (k, x) :: xs => '(' :: shown k ++ ',' :: ' ' :: shown x ++ ')' :: ',' :: ' ' :: shownEntries xs

end

end Literal

end ColumnStore
