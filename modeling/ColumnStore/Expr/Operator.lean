/-!
# Operators

The operators of expressions, how they are written and how strongly they bind.

An operator that binds more strongly takes its operands first. Of two operators
that bind alike the left one comes first, so that a chain groups to the left.
Four operators may be grouped either way without a change of meaning.

## Main definitions

* `BinaryOp`, `UnaryOp`: The operators.
* `BinaryOp.symbol`: How an operator is written.
* `BinaryOp.precedence`, `UnaryOp.precedence`: How strongly an operator binds.
* `BinaryOp.associative`: Whether grouping does not matter.
-/

namespace ColumnStore

/-- An operator between two operands. -/
inductive BinaryOp
  /-- Equality. -/
  | eq
  /-- Inequality. -/
  | ne
  /-- Strictly below. -/
  | lt
  /-- Below or equal. -/
  | le
  /-- Strictly above. -/
  | gt
  /-- Above or equal. -/
  | ge
  /-- Both conditions. -/
  | and
  /-- One condition at least. -/
  | or
  /-- Membership in a list or in the result of a statement. -/
  | isIn
  /-- The opposite of membership. -/
  | notIn
  /-- Likeness to a pattern. -/
  | like
  /-- The opposite of likeness. -/
  | notLike
  /-- Likeness to a pattern in any letter case. -/
  | ilike
  /-- Membership in the range between two bounds, which are a list of two items. -/
  | between
  /-- Sum. -/
  | add
  /-- Difference. -/
  | sub
  /-- Product. -/
  | mul
  /-- Quotient. -/
  | div
  /-- Remainder. -/
  | mod
  deriving DecidableEq

/-- An operator before one operand. -/
inductive UnaryOp
  /-- The opposite of a condition. -/
  | not
  /-- The number of opposite sign. -/
  | neg
  deriving DecidableEq

namespace BinaryOp

/-- How strongly an operator binds. Higher binds first. -/
def precedence : BinaryOp → Nat
  | or => 1
  | and => 2
  | eq | ne | lt | le | gt | ge | isIn | notIn | like | notLike | ilike | between => 4
  | add | sub => 5
  | mul | div | mod => 6

/-- Whether a chain of the operator means the same however it is grouped. -/
def associative : BinaryOp → Bool
  | and | or | add | mul => true
  | _ => false

/-- How an operator is written. -/
def symbol : BinaryOp → String
  | eq => "="
  | ne => "!="
  | lt => "<"
  | le => "<="
  | gt => ">"
  | ge => ">="
  | and => "AND"
  | or => "OR"
  | isIn => "IN"
  | notIn => "NOT IN"
  | like => "LIKE"
  | notLike => "NOT LIKE"
  | ilike => "ILIKE"
  | between => "BETWEEN"
  | add => "+"
  | sub => "-"
  | mul => "*"
  | div => "/"
  | mod => "%"

end BinaryOp

namespace UnaryOp

/-- How strongly an operator binds, on the scale of the binary operators. -/
def precedence : UnaryOp → Nat
  | not => 3
  | neg => 7

end UnaryOp

end ColumnStore
