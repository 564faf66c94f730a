import ColumnStore.Result.Rows
import ColumnStore.Session.Exchange
import ColumnStore.Text.Shown

/-!
# Sessions

A session carries out operations on the database of its settings. It either
waits for responses or takes them as they arrive; the operations are the same.
A session of settings that only read refuses to write before anything is sent.

## Main definitions

* `Session`: Settings and a way to read responses.
* `Session.connect`: A session, unless its settings are refused.
* `Session.run`, `Session.tell`: Carries out a statement.
* `Session.raw`, `Session.select`: Carries out a text.
* `Session.scalar`: The number that answers a question.
* `Session.serverVersion`: The version of the server.
-/

namespace ColumnStore

/-- A way to carry out operations on a database. -/
structure Session where
  /-- How responses are read. -/
  mode : Mode
  /-- How the server is reached. -/
  settings : Settings

namespace Session

open Exchanging (send checked result)

/-- A session, unless its settings are refused. -/
def connect (mode : Mode) (settings : Settings) : Except Failure Session :=
  match settings.check with
  | .ok _ => .ok ⟨mode, settings⟩
  | .error e => .error (.settings e)

/-- The name of the database. -/
def name (s : Session) : String :=
  s.settings.database

/-- The kind of a session, in texts for people. -/
def kind (s : Session) : String :=
  match s.mode with
  | .blocking => "Database"
  | .streaming => "AsyncDatabase"

/-- A session as a text for people. -/
def shown (s : Session) : List Char :=
  s.kind.toList ++ " \x7b url: ".toList ++ Text.showQuoted s.settings.baseUrl.toList
    ++ ", database: ".toList ++ Text.showQuoted s.name.toList ++ " \x7d".toList

/-- Refuses an operation that writes if the session only reads. -/
def ensureWritable (s : Session) (operation : String) : Exchanging Unit :=
  if s.settings.readonly then throw (.build (.readOnlyDatabase s.name operation)) else pure ()

/-- Carries out a statement inside the database. -/
def run (s : Session) (statement : Statement) : Exchanging Cursor :=
  send s.mode { statement := statement }

/-- Carries out an order whose answer says nothing. It is read to its end. -/
def tell (s : Session) (o : Order) : Exchanging Unit := do
  let cursor ← send s.mode o
  let _ ← result cursor.text

/-- Carries out any text and gives the answer as a text. -/
def raw (s : Session) (text : String) : Exchanging (List Char) := do
  let cursor ← s.run (.command text.toList)
  result cursor.text

/-- Asks any question and gives the rows of the answer. -/
def select (s : Session) (text : String) : Exchanging (Rows Row) := do
  pure (Rows.plain (← s.run (.query text.toList)))

/-- The number at the start of a row. -/
def numberOfRow? (r : Row) : Option UInt64 :=
  match r.values.head?.bind fun v => v.to? (.word ⟨false, .w64⟩) with
  | some (.uint n) => some n
  | _ => none

/-- The number at the start of the first row of an answer. -/
def firstNumber (statement : String) (rows : Rows Row) : Except Failure UInt64 := do
  match ← rows.first with
  | none => throw (.decode "<result>" none .noRow (some statement))
  | some row =>
    match numberOfRow? row with
    | some n => pure n
    | none => throw (.decode (row.columns.head?.getD "<result>") none .notNumber (some statement))

/-- The number that answers a question. -/
def scalar (s : Session) (question : Statement) : Exchanging UInt64 := do
  let cursor ← s.run question
  result (firstNumber question.text (Rows.plain cursor))

/-- The numbers of a version, between points. -/
def readVersion (text : List Char) : Except Failure (List UInt32) :=
  let text := Text.trim text
  match (Text.splitOn '.' text).mapM Wire.code? with
  | some numbers => .ok numbers
  | none => .error (.decode "version()" (some (String.ofList text)) .notVersion none)

/-- The version of the server. -/
def serverVersion (s : Session) : Exchanging (List UInt32) := do
  result (readVersion (← s.raw "SELECT version()"))

end Session

end ColumnStore
