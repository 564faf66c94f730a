import ColumnStore.Failure
import ColumnStore.Number.Whole

/-!
# Settings of a Connection

How a server is reached, which database is meant, on whose behalf, and what a
connection may do. Every setting has a usual value. Settings with which no
request could succeed are refused before one is sent; of several reasons the
first in a fixed order counts.

## Main definitions

* `Settings`: The settings with their usual values.
* `Settings.baseUrl`: The address of the server.
* `Settings.check`: The first reason to refuse settings.
-/

namespace ColumnStore

/-- The settings of a connection. -/
structure Settings where
  /-- The server. -/
  host : String := "localhost"
  /-- The port of the server. -/
  port : UInt16 := 8123
  /-- The database that statements are about. -/
  database : String := "default"
  /-- The user on whose behalf statements are sent. -/
  user : Option String := none
  /-- The password of the user. -/
  password : Option String := none
  /-- How many seconds a response may take. -/
  timeoutSeconds : UInt64 := 60
  /-- Whether the certificate of the server is verified. -/
  verifyCertificate : Bool := true
  /-- Whether the connection is encrypted. -/
  secure : Bool := false
  /-- How many requests may be under way at once. -/
  maxConnections : UInt64 := 10
  /-- How many milliseconds a request may wait for its turn. -/
  poolTimeoutMillis : UInt64 := 30000
  /-- Whether every statement is logged. -/
  logStatements : Bool := false
  /-- Whether the connection refuses to write. -/
  readonly : Bool := false
  deriving DecidableEq

namespace Settings

/-- The usual settings. -/
def usual : Settings := {}

/-- The address of the server. -/
def baseUrl (s : Settings) : String :=
  let scheme := if s.secure then "https" else "http"
  s!"{scheme}://{s.host}:{s.port.toNat}/"

/-- How many milliseconds a response may take. -/
def timeoutMillis (s : Settings) : Nat :=
  s.timeoutSeconds.toNat * 1000

/-- Refuses settings with which no request could succeed. -/
def check (s : Settings) : Except SettingsFault Unit := do
  if s.host = "" then throw .emptyHost
  if s.database = "" then throw .emptyDatabase
  if s.maxConnections = 0 then throw .noConnections
  if s.timeoutSeconds = 0 then throw .noTime
  if s.password.isSome && s.user.isNone then throw .passwordWithoutUser

/-- Who sends statements, and with which password, if anyone is named. -/
def credentials (s : Settings) : Option (String × Option String) :=
  s.user.map fun user => (user, s.password)

end Settings

end ColumnStore
