import ColumnStore.Keyed
import ColumnStore.Number.Real

/-!
# TOML

Documents of settings: tables of named values that nest.

A table remembers how it came into being, because that decides what may still
be added to it. A table with a header of its own is filled below the header. One
that was only named on the way to another may later get a header. One that was
named by a key with dots takes further keys with dots, but no header. One inside
braces is complete.

## Main definitions

* `Toml`: The values.
* `Toml.Origin`: How a table came into being.
* `Toml.within`: Changes a table that is reached by a path.
* `Toml.assign`: Adds a value under a key with dots.
-/

namespace ColumnStore

/-- How a table came into being. -/
inductive Toml.Origin
  /-- By a header of its own, or as the whole document. -/
  | header
  /-- On the way to a table with a header. -/
  | implied
  /-- On the way to a value, in a key with dots. -/
  | dotted
  /-- Inside braces. -/
  | braces
  deriving DecidableEq

/-- A value of a document. -/
inductive Toml
  /-- A text. -/
  | string (s : String)
  /-- A whole number. -/
  | integer (n : Int)
  /-- A floating-point number. -/
  | float (x : Binary64)
  /-- A truth value. -/
  | bool (b : Bool)
  /-- A day, a time of day, or both, as it was written. -/
  | moment (text : String)
  /-- Values in brackets. -/
  | array (items : List Toml)
  /-- Named values. -/
  | table (origin : Toml.Origin) (entries : List (String × Toml))
  /-- Tables of which each has a header of the same name. -/
  | tables (items : List Toml)

namespace Toml

/-- Whether a table came into being by being named only. -/
def Origin.passing : Origin → Bool
  | implied => true
  | dotted => true
  | _ => false

/-- A table without entries. -/
def emptyTable (origin : Origin) : Toml :=
  table origin []

/-- Changes the table that is reached by a path from a table. What is missing on
    the way is added. Of tables under one name the last is meant. A key with
    dots only passes tables that were named and nothing else. -/
def within (keyWithDots : Bool) (change : Toml → Option Toml) : List String → Toml → Option Toml
  | [], t => change t
  | name :: path, table origin entries => do
    let added ← match Keyed.get? name entries with
      | none =>
        within keyWithDots change path (emptyTable (if keyWithDots then .dotted else .implied))
      | some (table inner es) =>
        if inner = .braces || (keyWithDots && !inner.passing) then none
        else within keyWithDots change path (table inner es)
      | some (tables items) => do
        let last ← items.getLast?
        let last ← within keyWithDots change path last
        pure (tables (items.dropLast ++ [last]))
      | some _ => none
    pure (table origin (Keyed.insert name added entries))
  | _ :: _, _ => none

/-- Adds an entry to a table. There must be none under its name. -/
def addEntry (name : String) (v : Toml) : Toml → Option Toml
  | table origin entries =>
    match Keyed.get? name entries with
    | none => some (table origin (Keyed.insert name v entries))
    | some _ => none
  | _ => none

/-- Whether a table was named by a key with dots. -/
def isDotted : Toml → Bool
  | table .dotted _ => true
  | _ => false

/-- Adds a value under a key, which consists of the names of the tables on the
    way and that of the value. A key with dots adds to tables of such keys only. -/
def assign (path : List String) (name : String) (v : Toml) : Toml → Option Toml :=
  within true (fun t => if t.isDotted = path.isEmpty then none else addEntry name v t) path

/-- Turns the entry of a name into a table with a header. A table that was only
    implied is kept; anything else must not be there. -/
def openTable (name : String) : Toml → Option Toml
  | table origin entries =>
    match Keyed.get? name entries with
    | none => some (table origin (Keyed.insert name (emptyTable .header) entries))
    | some (table .implied es) => some (table origin (Keyed.insert name (table .header es) entries))
    | some _ => none
  | _ => none

/-- Adds a table to those that share a name. -/
def openElement (name : String) : Toml → Option Toml
  | table origin entries =>
    match Keyed.get? name entries with
    | none => some (table origin (Keyed.insert name (tables [emptyTable .header]) entries))
    | some (tables items) =>
      some (table origin (Keyed.insert name (tables (items ++ [emptyTable .header])) entries))
    | some _ => none
  | _ => none

end Toml

end ColumnStore
