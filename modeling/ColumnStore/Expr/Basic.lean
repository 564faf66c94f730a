import ColumnStore.Expr.Operator
import ColumnStore.Value.Basic

/-!
# Expressions

Conditions, selections, defaults and sort keys are trees of one kind. A tree
names fields of a model; before a statement is written, the names are replaced
by those of the columns in which the fields are stored.

## Main definitions

* `Expr`: The trees.
* `Expr.fields`: The names of the fields in reading order.
* `Expr.mapFields`: A tree with its fields renamed.
* `Expr.agrees`: Equality of trees over a notion for floating-point numbers.

## Theorems

* `fields_mapFields`: Renaming renames each field where it stands.
-/

namespace ColumnStore

/-- An expression. -/
inductive Expr
  /-- A constant. -/
  | literal (v : Value)
  /-- A field of a model. -/
  | field (name : String)
  /-- Two operands with an operator between them. -/
  | binary (op : BinaryOp) (left right : Expr)
  /-- One operand after an operator. -/
  | unary (op : UnaryOp) (operand : Expr)
  /-- A function applied to any number of arguments. -/
  | call (function : String) (arguments : List Expr)
  /-- A text that is taken as it is. -/
  | raw (sql : String)
  /-- A list, as the right side of membership or as the bounds of a range. -/
  | list (items : List Expr)

namespace Expr

mutual

/-- The names of the fields in reading order. -/
def fields : Expr → List String
  | field name => [name]
  | binary _ l r => fields l ++ fields r
  | unary _ e => fields e
  | call _ es => listFields es
  | list es => listFields es
  | literal _ => []
  | raw _ => []

/-- The names of the fields of some expressions. -/
def listFields : List Expr → List String
  | [] => []
  | e :: es => fields e ++ listFields es

end

mutual

/-- The expression with each field renamed. -/
def mapFields (rename : String → String) : Expr → Expr
  | field name => field (rename name)
  | binary op l r => binary op (mapFields rename l) (mapFields rename r)
  | unary op e => unary op (mapFields rename e)
  | call f es => call f (listMapFields rename es)
  | list es => list (listMapFields rename es)
  | literal v => literal v
  | raw s => raw s

/-- Some expressions with each field renamed. -/
def listMapFields (rename : String → String) : List Expr → List Expr
  | [] => []
  | e :: es => mapFields rename e :: listMapFields rename es

end

mutual

/-- Equality of expressions, given a notion of equality of floating-point numbers. -/
def agrees (eq : Binary64 → Binary64 → Bool) : Expr → Expr → Bool
  | literal v, literal w => v.agrees eq w
  | field m, field n => m = n
  | binary o l r, binary p l' r' => o = p && agrees eq l l' && agrees eq r r'
  | unary o e, unary p e' => o = p && agrees eq e e'
  | call f es, call g es' => f = g && listAgrees eq es es'
  | raw s, raw t => s = t
  | list es, list es' => listAgrees eq es es'
  | _, _ => false

/-- Equality of lists of expressions. -/
def listAgrees (eq : Binary64 → Binary64 → Bool) : List Expr → List Expr → Bool
  | [], [] => true
  | e :: es, e' :: es' => agrees eq e e' && listAgrees eq es es'
  | _, _ => false

end

/-- Equality where constants are equal as numbers. -/
def equal : Expr → Expr → Bool :=
  agrees Binary64.agrees

/-- Equality under which every expression is itself. -/
def same : Expr → Expr → Bool :=
  agrees fun x y => x = y || x.agrees y

/-- One of the values of a list. -/
def among (e : Expr) (items : List Expr) : Expr :=
  binary .isIn e (list items)

/-- None of the values of a list. -/
def notAmong (e : Expr) (items : List Expr) : Expr :=
  binary .notIn e (list items)

/-- A value in a range, both bounds included. -/
def between (e lo hi : Expr) : Expr :=
  binary .between e (list [lo, hi])

/-- The opposite of a condition. -/
def not (e : Expr) : Expr :=
  unary .not e

/-- All conditions of a list, grouped to the left, if there is one. -/
def conjunction? : List Expr → Option Expr
  | [] => none
  | e :: es => some (es.foldl (binary .and) e)

mutual

/-- Renaming renames each field where it stands. -/
theorem fields_mapFields (rename : String → String) (e : Expr) :
    (e.mapFields rename).fields = e.fields.map rename := by
  cases e with
  | field name => simp [fields, mapFields]
  | literal v => simp [fields, mapFields]
  | raw s => simp [fields, mapFields]
  | binary op l r => simp [fields, mapFields, fields_mapFields rename l, fields_mapFields rename r]
  | unary op e => simp [fields, mapFields, fields_mapFields rename e]
  | call f es => simp [fields, mapFields, listFields_listMapFields rename es]
  | list es => simp [fields, mapFields, listFields_listMapFields rename es]

/-- Renaming renames each field of a list where it stands. -/
theorem listFields_listMapFields (rename : String → String) (es : List Expr) :
    listFields (listMapFields rename es) = (listFields es).map rename := by
  cases es with
  | nil => simp [listFields, listMapFields]
  | cons e es =>
    simp [listFields, listMapFields, fields_mapFields rename e, listFields_listMapFields rename es]

end

end Expr

end ColumnStore
