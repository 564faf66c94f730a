import ColumnStore.Failure

/-!
# Settings of a Log

How much is logged, in which form, and where to.

## Main definitions

* `LogFormat`: The forms of a line.
* `Logging`: The settings with their usual values.
-/

namespace ColumnStore

/-- The form of a line of a log. -/
inductive LogFormat
  /-- For people. -/
  | pretty
  /-- One object of JSON. -/
  | json
  deriving DecidableEq

/-- The form that is meant by a name, whose letters may be of either case. -/
def LogFormat.read? (name : String) : Option LogFormat :=
  match String.ofList (name.toList.map Char.toLower) with
  | "pretty" => some pretty
  | "text" => some pretty
  | "json" => some json
  | _ => none

/-- The settings of a log. -/
structure Logging where
  /-- The least level that is logged. -/
  level : String := "info"
  /-- The name of the form of a line. -/
  format : String := "pretty"
  /-- The file to which lines are added, if there is one. -/
  file : Option String := none
  deriving DecidableEq

namespace Logging

/-- The usual settings. -/
def usual : Logging := {}

/-- The form of a line, or a refusal of its name. -/
def lineFormat (l : Logging) : Except SettingsFault LogFormat :=
  match LogFormat.read? l.format with
  | some f => .ok f
  | none => .error (.unknownLogFormat l.format)

end Logging

end ColumnStore
