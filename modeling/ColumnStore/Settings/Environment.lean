import ColumnStore.Settings.Basic
import ColumnStore.Settings.Logging

/-!
# Settings in the Environment

Variables that take the place of settings. A text is taken as it is. A number or
a truth value that is not understood leaves the setting as it was.

## Main definitions

* `Environment`: Variables with their values.
* `Settings.override`, `Logging.override`: Settings under an environment.
-/

namespace ColumnStore

/-- Variables with their values. -/
abbrev Environment := List (String × String)

namespace Environment

/-- What the names of all variables start with. -/
def family : String := "CLICKHOUSE_ORM_"

/-- The value of a variable. The name is given without its common start. -/
def get? (env : Environment) (name : String) : Option String :=
  (env.find? fun e => e.1 = family ++ name).map (·.2)

/-- A truth value. -/
def truth? (value : String) : Option Bool :=
  let lower := String.ofList (value.toList.map Char.toLower)
  if ["1", "true", "yes", "on"].contains lower then some true
  else if ["0", "false", "no", "off"].contains lower then some false
  else none

/-- A port. -/
def port? (value : String) : Option UInt16 :=
  (Number.naturalBelow? UInt16.size value.toList).map UInt16.ofNat

/-- A count. -/
def count? (value : String) : Option UInt64 :=
  (Number.naturalBelow? UInt64.size value.toList).map UInt64.ofNat

/-- The value of a variable as a reader understands it, or what was there before. -/
def setting {α : Type} (env : Environment) (read : String → Option α) (before : α)
    (name : String) : α :=
  ((env.get? name).bind read).getD before

end Environment

/-- Settings of a connection under an environment. -/
def Settings.override (env : Environment) (s : Settings) : Settings where
  host := env.setting some s.host "HOST"
  port := env.setting Environment.port? s.port "PORT"
  database := env.setting some s.database "DATABASE"
  user := env.setting (fun v => some (some v)) s.user "USER"
  password := env.setting (fun v => some (some v)) s.password "PASSWORD"
  timeoutSeconds := env.setting Environment.count? s.timeoutSeconds "TIMEOUT"
  verifyCertificate := env.setting Environment.truth? s.verifyCertificate "VERIFY_SSL"
  secure := env.setting Environment.truth? s.secure "SECURE"
  maxConnections := env.setting Environment.count? s.maxConnections "MAX_CONNECTIONS"
  poolTimeoutMillis := env.setting Environment.count? s.poolTimeoutMillis "POOL_TIMEOUT"
  logStatements := env.setting Environment.truth? s.logStatements "LOG_STATEMENTS"
  readonly := env.setting Environment.truth? s.readonly "READONLY"

/-- Settings of a log under an environment. -/
def Logging.override (env : Environment) (l : Logging) : Logging :=
  { l with
    level := env.setting some l.level "LOG_LEVEL"
    format := env.setting some l.format "LOG_FORMAT" }

end ColumnStore
