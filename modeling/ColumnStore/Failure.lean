import ColumnStore.Fault
import ColumnStore.Value.Target

/-!
# Failures

Everything that can go wrong between a program and a server, in five kinds: the
program asked for something that makes no sense; its settings are wrong; the
server refused a statement; no usable response came; or a response could not be
understood. Only a missing response may be worth another attempt, since the
same statement fails in the same way otherwise.

A failure carries the statement that it is about. Where it arises before the
statement is known there, the statement is added on the way up, and the first
one that is added stays.

## Main definitions

* `Failure`: The failures.
* `Failure.message`: What went wrong.
* `Failure.text`: The same after the name of the kind.
* `Failure.withStatement`: Adds a statement to a failure that has none.

## Theorems

* `withStatement_withStatement`: The first statement stays.
* `statement?_withStatement`: What a failure is about after a statement was added.
-/

namespace ColumnStore

/-- What is wrong with settings. -/
inductive SettingsFault
  /-- No server is named. -/
  | emptyHost
  /-- No database is named. -/
  | emptyDatabase
  /-- No request could ever be sent. -/
  | noConnections
  /-- No response could ever arrive in time. -/
  | noTime
  /-- A password that belongs to nobody. -/
  | passwordWithoutUser
  /-- A log format that does not exist. -/
  | unknownLogFormat (name : String)
  /-- A file that is not there, or is not text. -/
  | unreadableFile
  /-- A file that is no document of settings. -/
  | malformedFile
  /-- A refusal in the words of the caller. -/
  | stated (message : String)

/-- The message of a fault of settings. -/
def SettingsFault.message : SettingsFault → String
  | emptyHost => "host must not be empty"
  | emptyDatabase => "database must not be empty"
  | noConnections => "max_connections must be at least 1"
  | noTime => "timeout must be positive"
  | passwordWithoutUser => "password given without a user"
  | unknownLogFormat name => s!"unknown log format '{name}' (expected pretty or json)"
  | unreadableFile => "failed to read config file"
  | malformedFile => "failed to parse config file"
  | stated m => m

/-- Why there is no usable response. -/
inductive LinkFault
  /-- All connections stayed in use for as long as the settings allow. -/
  | noConnection (milliseconds : Nat)
  /-- A response of a status other than success, without an error of the server in it. -/
  | status (code : Nat) (body : String)
  /-- A line of the response is not text. -/
  | notText
  /-- The response as a whole is not text. -/
  | unreadableBody
  /-- A refusal in the words of the connection. -/
  | stated (message : String)

/-- The message of a missing response. -/
def LinkFault.message : LinkFault → String
  | noConnection ms => s!"no connection available after {ms}ms"
  | status code body => s!"HTTP {code}: {body}"
  | notText => "response is not valid UTF-8"
  | unreadableBody => "failed to read response"
  | stated m => m

/-- Why a response is not understood. -/
inductive DecodeFault
  /-- A cell that the type of its column refuses. -/
  | cell (error : CodecError)
  /-- A column that no field of the model is stored in. -/
  | unknownColumn (table : String)
  /-- A column that the result does not have. -/
  | missingColumn
  /-- A value of a kind that is not converted to what was asked for. -/
  | conversion (kind : String) (target : Target)
  /-- A header of one line. -/
  | noTypes
  /-- A header whose two lines differ in length. -/
  | headerWidth (names types : Nat)
  /-- A row of another length than the header. -/
  | rowWidth (expected found : Nat)
  /-- A result without rows where there must be one. -/
  | noRow
  /-- A row that does not start with a number from zero up. -/
  | notNumber
  /-- A text that is not the version of a server. -/
  | notVersion
  /-- A refusal in the words of the caller. -/
  | stated (message : String)

/-- What can be asked for, in messages. -/
def Target.name : Target → String
  | value => "Value"
  | string => "String"
  | bool => "Bool"
  | word w => String.ofList (ColumnType.wordName w)
  | float => "Float64"
  | decimal => "Decimal"
  | date => "Date"
  | dateTime => "DateTime"
  | uuid => "UUID"
  | ipv4 => "IPv4"
  | ipv6 => "IPv6"
  | json => "JSON"
  | optional t => s!"Nullable({t.name})"
  | list t => s!"Array({t.name})"

/-- The message of a response that is not understood. -/
def DecodeFault.message : DecodeFault → String
  | cell error => error.message
  | unknownColumn t => s!"model {ticked t} has no such column"
  | missingColumn => "no such column in result"
  | conversion kind target => s!"cannot convert {kind} value to {target.name}"
  | noTypes => "response ended before the type header"
  | headerWidth names types => s!"{names} column names but {types} types"
  | rowWidth expected found => s!"expected {expected} cells, got {found}"
  | noRow => "expected one row, got none"
  | notNumber => "expected an unsigned integer"
  | notVersion => "not a dotted version number"
  | stated m => m

/-- What went wrong between a program and a server. -/
inductive Failure
  /-- Something was refused while it was put together. -/
  | build (fault : Fault)
  /-- Settings were refused. -/
  | settings (fault : SettingsFault)
  /-- The server refused a statement. -/
  | server (code : UInt32) (message statement : String)
  /-- No usable response came. -/
  | transport (fault : LinkFault) (statement : Option String)
  /-- A response was not understood. The column says where, the value what. -/
  | decode (column : String) (value : Option String) (fault : DecodeFault)
      (statement : Option String)

namespace Failure

/-- What went wrong. -/
def message : Failure → String
  | build fault => fault.message
  | settings fault => fault.message
  | server _ m _ => m
  | transport fault _ => fault.message
  | decode _ _ fault _ => fault.message

/-- What went wrong, after the kind of the failure. -/
def text : Failure → String
  | build fault => "Build error: " ++ fault.message
  | settings fault => "Configuration error: " ++ fault.message
  | server code m statement => s!"Server error {code.toNat}: {m} (statement: {statement})"
  | transport fault _ => "Transport error: " ++ fault.message
  | decode column _ fault _ => s!"Decode error in column {ticked column}: {fault.message}"

/-- A failure to understand a cell of a column. -/
def ofCell (column : String) (cell : Option (List Char)) (fault : DecodeFault) : Failure :=
  decode column (cell.map String.ofList) fault none

/-- The failure as one about a statement, unless it is about one already. -/
def withStatement (statement : String) : Failure → Failure
  | transport fault none => transport fault (some statement)
  | decode column value fault none => decode column value fault (some statement)
  | failure => failure

/-- The statement that a failure is about. -/
def statement? : Failure → Option String
  | server _ _ statement => some statement
  | transport _ statement => statement
  | decode _ _ _ statement => statement
  | _ => none

/-- Whether the same request may succeed at another time. -/
def retryable : Failure → Bool
  | transport _ _ => true
  | _ => false

/-- The statement that was added first stays. -/
theorem withStatement_withStatement (s t : String) (f : Failure) :
    withStatement t (withStatement s f) = withStatement s f := by
  cases f with
  | build _ => rfl
  | settings _ => rfl
  | server _ _ _ => rfl
  | transport _ st => cases st <;> rfl
  | decode _ _ _ st => cases st <;> rfl

/-- What a failure is about after a statement was added: what it was about
    before, if anything, and that statement if it can be about one. -/
theorem statement?_withStatement (s : String) (f : Failure) :
    (withStatement s f).statement? =
      match f with
      | build _ | settings _ => none
      | f => some (f.statement?.getD s) := by
  cases f with
  | build _ => rfl
  | settings _ => rfl
  | server _ _ _ => rfl
  | transport _ st => cases st <;> rfl
  | decode _ _ _ st => cases st <;> rfl

end Failure

end ColumnStore
