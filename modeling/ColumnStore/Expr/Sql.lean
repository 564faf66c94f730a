import ColumnStore.Expr.Basic
import ColumnStore.Value.Sql

/-!
# Expressions in Statements

How an expression is written. An operand stands in brackets only where reading
would group it otherwise: if it binds less strongly than the operator around
it, or if it binds alike and stands on the right, except where a chain of one
operator may be grouped either way. A text that is taken as it is always stands
in brackets as an operand, because nothing is known about what it holds. The
minus sign before an operand that starts with one takes brackets as well, since
two of them would start a comment.

The text of an operand is computed first and put into brackets after, so that
writing follows the tree.

## Main definitions

* `Expr.precedence?`: How strongly the outermost operator binds.
* `Expr.needsBrackets`: Whether an operand stands in brackets.
* `Expr.sql`: The text of an expression.
-/

namespace ColumnStore

/-- A text in round brackets. -/
def bracketed (s : List Char) : List Char :=
  '(' :: (s ++ [')'])

namespace Expr

/-- The strength of what no operator can take apart. -/
def atomPrecedence : Nat := 10

/-- How strongly the outermost operator binds. Nothing is known of raw text. -/
def precedence? : Expr → Option Nat
  | raw _ => none
  | binary op _ _ => some op.precedence
  | unary op _ => some op.precedence
  | _ => some atomPrecedence

/-- Whether an expression is a chain of an operator that may be regrouped. -/
def continuesChain (op : BinaryOp) : Expr → Bool
  | binary o _ _ => o = op && op.associative
  | _ => false

/-- Whether the left operand, or the only one, of an operator of a strength
    stands in brackets. -/
def needsBrackets (strength : Nat) (e : Expr) : Bool :=
  match e.precedence? with
  | none => true
  | some p => p < strength

/-- Whether the right operand of an operator stands in brackets. -/
def needsBracketsRight (op : BinaryOp) (e : Expr) : Bool :=
  match e.precedence? with
  | none => true
  | some p => p < op.precedence || (p = op.precedence && !e.continuesChain op)

/-- A text, in brackets if so wanted. -/
def bracketedIf (wanted : Bool) (s : List Char) : List Char :=
  if wanted then bracketed s else s

/-- An operator before the text of its operand. -/
def unarySql (op : UnaryOp) (operand : List Char) : List Char :=
  match op with
  | .not => "NOT ".toList ++ operand
  | .neg => '-' :: bracketedIf (operand.head? = some '-') operand

/-- Texts with a blank on both sides of a word between them. -/
def joinedBy (word : String) (left right : List Char) : List Char :=
  left ++ ' ' :: (word.toList ++ ' ' :: right)

mutual

/-- The text of an expression. -/
def sql : Expr → List Char
  | literal v => v.sql
  | field name => Text.quoteName name.toList
  | raw s => s.toList
  | list items => bracketed (commaSeparated (listSql items))
  | call f arguments => f.toList ++ bracketed (commaSeparated (listSql arguments))
  | unary op e => unarySql op (bracketedIf (e.needsBrackets op.precedence) (sql e))
  | binary .between l (list [lo, hi]) =>
    joinedBy BinaryOp.between.symbol
      (bracketedIf (l.needsBrackets BinaryOp.between.precedence) (sql l))
      (joinedBy BinaryOp.and.symbol
        (bracketedIf (lo.needsBracketsRight .between) (sql lo))
        (bracketedIf (hi.needsBracketsRight .between) (sql hi)))
  | binary op l r =>
    joinedBy op.symbol
      (bracketedIf (l.needsBrackets op.precedence) (sql l))
      (bracketedIf (r.needsBracketsRight op) (sql r))

/-- The texts of some expressions. -/
def listSql : List Expr → List (List Char)
  | [] => []
  | e :: es => sql e :: listSql es

end

/-- The texts of some expressions with commas between them. -/
def commaSql (es : List Expr) : List Char :=
  commaSeparated (listSql es)

end Expr

end ColumnStore
