import ColumnStore.Expr.Basic

/-!
# Built-in Functions

The functions that the server offers and that are often used, and how their
names are written. How many arguments a function takes is left to the server.

## Main definitions

* `Builtin`: The functions.
* `Builtin.all`: The list of them.
* `Builtin.name`: How a function is written.
* `Builtin.apply`: The application to arguments.

## Theorems

* `mem_all`: The list of the functions leaves none out.
-/

namespace ColumnStore

/-- A function of the server. -/
inductive Builtin
  /-- Number of rows. -/
  | count
  /-- Number of rows under a condition. -/
  | countIf
  /-- Sum over rows. -/
  | sum
  /-- Sum over rows under a condition. -/
  | sumIf
  /-- Mean over rows. -/
  | avg
  /-- Least value over rows. -/
  | min
  /-- Greatest value over rows. -/
  | max
  /-- Estimated number of different values. -/
  | uniq
  /-- Number of different values. -/
  | uniqExact
  /-- Some value. -/
  | any
  /-- Values of all rows in an array. -/
  | groupArray
  /-- The present point in time. -/
  | now
  /-- The present day. -/
  | today
  /-- Conversion to a day. -/
  | toDate
  /-- Conversion to a point in time. -/
  | toDateTime
  /-- First day of a month. -/
  | toStartOfMonth
  /-- First point in time of a day. -/
  | toStartOfDay
  /-- Year and month in one number, the usual key of a partition. -/
  | toYearMonth
  /-- Year of a day. -/
  | toYear
  /-- Small letters. -/
  | lower
  /-- Capital letters. -/
  | upper
  /-- Length of a text or an array. -/
  | length
  /-- Texts one after the other. -/
  | concat
  /-- Conversion to a text. -/
  | toText
  /-- Choice under a condition. -/
  | choose
  /-- The first argument that has content. -/
  | coalesce
  /-- Membership in an array. -/
  | has
  /-- Whether a text or an array is empty. -/
  | empty
  /-- Whether a text or an array is not empty. -/
  | notEmpty
  /-- Absolute value. -/
  | abs
  /-- Rounding to a number of places. -/
  | round
  deriving DecidableEq

namespace Builtin

/-- The list of the functions. -/
def all : List Builtin :=
  [count, countIf, sum, sumIf, avg, min, max, uniq, uniqExact, any, groupArray, now, today, toDate,
    toDateTime, toStartOfMonth, toStartOfDay, toYearMonth, toYear, lower, upper, length, concat,
    toText, choose, coalesce, has, empty, notEmpty, abs, round]

/-- How a function is written. -/
def name : Builtin → String
  | count => "count"
  | countIf => "countIf"
  | sum => "sum"
  | sumIf => "sumIf"
  | avg => "avg"
  | min => "min"
  | max => "max"
  | uniq => "uniq"
  | uniqExact => "uniqExact"
  | any => "any"
  | groupArray => "groupArray"
  | now => "now"
  | today => "today"
  | toDate => "toDate"
  | toDateTime => "toDateTime"
  | toStartOfMonth => "toStartOfMonth"
  | toStartOfDay => "toStartOfDay"
  | toYearMonth => "toYYYYMM"
  | toYear => "toYear"
  | lower => "lower"
  | upper => "upper"
  | length => "length"
  | concat => "concat"
  | toText => "toString"
  | choose => "if"
  | coalesce => "coalesce"
  | has => "has"
  | empty => "empty"
  | notEmpty => "notEmpty"
  | abs => "abs"
  | round => "round"

/-- The list leaves no function out. -/
theorem mem_all (f : Builtin) : f ∈ all := by
  cases f <;> decide

/-- The application of a function to arguments. -/
def apply (f : Builtin) (arguments : List Expr) : Expr :=
  .call f.name arguments

end Builtin

end ColumnStore
