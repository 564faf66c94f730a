import ColumnStore.Session.Order
import ColumnStore.Wire.Cursor

/-!
# Exchanges with a Server

What goes back and forth between a program and a server: the orders that were
sent, and the responses that will come, one for each order. What the server
will say is thus known in advance, which makes every operation a function. When
all responses have come, the server answers with nothing.

An operation that fails keeps what was sent up to then.

## Main definitions

* `Response`: What comes back for an order.
* `Response.cursor`: A cursor at the first row of a response.
* `Exchange`: What was sent and what will come.
* `Exchanging`: Operations in the course of an exchange.
* `Exchanging.send`: Sends an order.
-/

namespace ColumnStore

/-- What comes back for an order. -/
inductive Response
  /-- An answer, which arrives in chunks. -/
  | answer (chunks : List Bytes)
  /-- A refusal, with the code beside its body if there is one. -/
  | refusal (status : UInt16) (code : Option String) (body : String)
  /-- Nothing. -/
  | nothing (fault : LinkFault)

/-- A cursor at the first row of the answer to a statement. -/
def Response.cursor (mode : Mode) (s : Statement) : Response → Except Failure Cursor
  | answer chunks => Cursor.start s (Body.ofChunks mode chunks)
  | refusal status code body => .error (Wire.classify status code body s.text)
  | nothing fault => .error (.transport fault (some s.text))

/-- What was sent to a server and what will come from it. -/
structure Exchange where
  /-- The orders that were sent, the first one first. -/
  sent : List Order := []
  /-- The responses that will come. -/
  coming : List Response := []

/-- Operations in the course of an exchange. -/
abbrev Exchanging (α : Type) := ExceptT Failure (StateM Exchange) α

namespace Exchanging

/-- Sends an order. -/
def send (mode : Mode) (o : Order) : Exchanging Cursor := fun e =>
  let response := e.coming.head?.getD (.answer [])
  (response.cursor mode o.statement, ⟨e.sent ++ [o], e.coming.tail⟩)

/-- A refusal of what was asked for, or its result. -/
def checked {α : Type} : Except Fault α → Exchanging α
  | .ok x => pure x
  | .error e => throw (.build e)

/-- A failure, or a result. -/
def result {α : Type} : Except Failure α → Exchanging α
  | .ok x => pure x
  | .error e => throw e

end Exchanging

end ColumnStore
