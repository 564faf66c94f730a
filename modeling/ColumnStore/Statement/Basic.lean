/-!
# Statements

A statement is a text for the server, and either a question, whose answer has
rows, or a command. The format of the rows is asked for at the end of the text
that is sent, and is not part of the statement itself.

## Main definitions

* `Statement`: A text and whether it is a question.
* `Statement.body`: The text that is sent.
-/

namespace ColumnStore

/-- A statement. -/
structure Statement where
  /-- The text. -/
  text : String
  /-- Whether the answer has rows. -/
  returnsRows : Bool
  deriving DecidableEq

namespace Statement

/-- The format of rows that are asked for: a line of names, a line of types, and
    a line for each row, with tabs between cells. -/
def rowFormat : String := "TabSeparatedWithNamesAndTypes"

/-- A question. -/
def query (text : List Char) : Statement :=
  ⟨String.ofList text, true⟩

/-- A command. -/
def command (text : List Char) : Statement :=
  ⟨String.ofList text, false⟩

/-- The text that is sent. -/
def body (s : Statement) : String :=
  if s.returnsRows then s.text ++ " FORMAT " ++ rowFormat else s.text

end Statement

end ColumnStore
