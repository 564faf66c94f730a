import ColumnStore.Settings.Basic
import ColumnStore.Statement.Basic

/-!
# Orders and Requests

An order is a statement that is to be carried out, inside the database of the
connection or outside all databases. A request is what is sent for it: an
address, parameters, a body and credentials. Each request has a name of its own,
under which the server keeps it in its log.

## Main definitions

* `Order`: A statement and whether it is about the database.
* `Request`: What is sent.
* `Order.request`: The request for an order.
-/

namespace ColumnStore

/-- A statement that is to be carried out. -/
structure Order where
  /-- The statement. -/
  statement : Statement
  /-- Whether it is carried out inside the database of the connection. -/
  inDatabase : Bool := true
  deriving DecidableEq

/-- What is sent to a server. -/
structure Request where
  /-- The address. -/
  url : String
  /-- The parameters with their values. -/
  params : List (String × String)
  /-- The text of the statement. -/
  body : String
  /-- The user and the password, if a user is named. -/
  credentials : Option (String × Option String)
  deriving DecidableEq

/-- The request for an order, under a name. Moments are asked for in a form that
    does not depend on the server. -/
def Order.request (o : Order) (s : Settings) (name : String) : Request where
  url := s.baseUrl
  params :=
    (if o.inDatabase then [("database", s.database)] else [])
      ++ [("query_id", name), ("date_time_output_format", "iso")]
  body := o.statement.body
  credentials := s.credentials

end ColumnStore
