import ColumnStore.Settings.Environment
import ColumnStore.Settings.Section
import ColumnStore.Toml.Reader
import ColumnStore.Wire.Line

/-!
# Configurations

The settings of a connection and of its log together, as they are loaded from a
file and the environment. What the environment says comes before what a file
says. Where no file is named, the usual places are tried in their order, and a
file that cannot be loaded is passed over.

## Main definitions

* `Configuration`: Settings of a connection and of its log.
* `Configuration.load`: The configuration of a file.
* `Configuration.override`: A configuration under an environment.
* `Configuration.find`: The configuration of the first file that can be loaded.
-/

namespace ColumnStore

/-- Settings of a connection and of its log. -/
structure Configuration where
  /-- The settings of the connection. -/
  connection : Settings := {}
  /-- The settings of the log. -/
  logging : Logging := {}
  deriving DecidableEq

namespace Configuration

/-- The usual configuration. -/
def usual : Configuration := {}

/-- The configuration of a document. -/
def ofToml? : Toml → Option Configuration
  | .table _ entries => do
    let connection ← Settings.ofSection? (← Section.ofEntries? "connection" entries)
    let logging ← Logging.ofSection? (← Section.ofEntries? "logging" entries)
    pure ⟨connection, logging⟩
  | _ => none

/-- The configuration of a text. -/
def read? (text : List Char) : Option Configuration :=
  (Toml.read? text).bind ofToml?

/-- The configuration of a file, which may not be there. -/
def load (file : Option Bytes) : Except SettingsFault Configuration :=
  match file.bind Wire.text? with
  | none => .error .unreadableFile
  | some text =>
    match read? text with
    | some c => .ok c
    | none => .error .malformedFile

/-- A configuration under an environment. -/
def override (env : Environment) (c : Configuration) : Configuration :=
  ⟨c.connection.override env, c.logging.override env⟩

/-- The configuration of an environment alone. -/
def ofEnvironment (env : Environment) : Configuration :=
  usual.override env

/-- The configuration of a file under an environment. -/
def loadUnder (env : Environment) (file : Option Bytes) : Except SettingsFault Configuration :=
  (load file).map (override env)

/-- The configuration of the first file that can be loaded, or of the
    environment alone. -/
def find (env : Environment) : List (Option Bytes) → Configuration
  | [] => ofEnvironment env
  | file :: files =>
    match loadUnder env file with
    | .ok c => c
    | .error _ => find env files

end Configuration

end ColumnStore
