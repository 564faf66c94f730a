import ColumnStore.Settings.Basic
import ColumnStore.Settings.Logging
import ColumnStore.Toml.Basic

/-!
# Sections of Settings

What a part of a document says about settings. A section names its settings or
lists their values in a fixed order. A setting that is missing has its usual
value; one that is there must be of the right kind, and a number must be in
range. What is not a setting is passed over, and so is a day or a time in place
of a whole section.

## Main definitions

* `Section`: Named or listed values.
* `Settings.ofSection?`, `Logging.ofSection?`: The settings in a section.
-/

namespace ColumnStore

/-- A part of a document. -/
inductive Section
  /-- Values with names. -/
  | named (entries : List (String × Toml))
  /-- Values in a fixed order. -/
  | listed (items : List Toml)

namespace Section

/-- The section that a value makes up, if it is of a right kind. -/
def ofToml? : Toml → Option Section
  | .table _ entries => some (named entries)
  | .array items => some (listed items)
  | .tables items => some (listed items)
  | .moment _ => some (named [])
  | _ => none

/-- The section under a name of a document. One that is missing is empty. -/
def ofEntries? (name : String) (entries : List (String × Toml)) : Option Section :=
  match Keyed.get? name entries with
  | none => some (named [])
  | some v => ofToml? v

/-- The value of the setting of a name and a place. -/
def get? (s : Section) (place : Nat) (name : String) : Option Toml :=
  match s with
  | named entries => Keyed.get? name entries
  | listed items => items[place]?

/-- The setting of a name and a place, or its usual value if it is missing. -/
def setting {α : Type} (s : Section) (read : Toml → Option α) (usual : α) (place : Nat)
    (name : String) : Option α :=
  match s.get? place name with
  | none => some usual
  | some v => read v

/-- A text. -/
def text? : Toml → Option String
  | .string s => some s
  | _ => none

/-- A truth value. -/
def truth? : Toml → Option Bool
  | .bool b => some b
  | _ => none

/-- A number from zero up, below a limit. -/
def numberBelow? (limit : Nat) : Toml → Option Nat
  | .integer n => if 0 ≤ n && n < limit then some n.toNat else none
  | _ => none

/-- A port. -/
def port? (v : Toml) : Option UInt16 :=
  (numberBelow? UInt16.size v).map UInt16.ofNat

/-- A count. -/
def count? (v : Toml) : Option UInt64 :=
  (numberBelow? UInt64.size v).map UInt64.ofNat

end Section

/-- The settings of a connection in a section. -/
def Settings.ofSection? (s : Section) : Option Settings := do
  let u := usual
  pure {
    host := ← s.setting Section.text? u.host 0 "host"
    port := ← s.setting Section.port? u.port 1 "port"
    database := ← s.setting Section.text? u.database 2 "database"
    user := ← s.setting (fun v => (Section.text? v).map some) u.user 3 "user"
    password := ← s.setting (fun v => (Section.text? v).map some) u.password 4 "password"
    timeoutSeconds := ← s.setting Section.count? u.timeoutSeconds 5 "timeout_secs"
    verifyCertificate := ← s.setting Section.truth? u.verifyCertificate 6 "verify_ssl"
    secure := ← s.setting Section.truth? u.secure 7 "secure"
    maxConnections := ← s.setting Section.count? u.maxConnections 8 "max_connections"
    poolTimeoutMillis := ← s.setting Section.count? u.poolTimeoutMillis 9 "pool_timeout_ms"
    logStatements := ← s.setting Section.truth? u.logStatements 10 "log_statements"
    readonly := ← s.setting Section.truth? u.readonly 11 "readonly" }

/-- The file of a log in a section. A section that lists values must list it. -/
def Logging.file? (s : Section) : Option (Option String) :=
  match s, s.get? 2 "file" with
  | _, some v => (Section.text? v).map some
  | .named _, none => some none
  | .listed _, none => none

/-- The settings of a log in a section. -/
def Logging.ofSection? (s : Section) : Option Logging := do
  let u := usual
  pure {
    level := ← s.setting Section.text? u.level 0 "level"
    format := ← s.setting Section.text? u.format 1 "format"
    file := ← file? s }

end ColumnStore
