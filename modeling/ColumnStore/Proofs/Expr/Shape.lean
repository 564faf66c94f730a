import ColumnStore.Expr.Sql

/-!
# Shapes of Values and Expressions

Induction over values and over expressions with the items of a list as members
of it, so that no statement has to be made twice, once for a tree and once for a
list of trees.

Of the binary operators one has two shapes: a range is written with its two
bounds if the right side is a list of two items, and like any other operator if
it is anything else. `Ranged` names the first shape, and the induction over
expressions has a case for each.

## Main definitions

* `Expr.Ranged`: The right side of an operator is the pair of bounds of a range.

## Theorems

* `Value.mem_induction`: Induction over values.
* `Expr.mem_induction`: Induction over expressions, ranges with two bounds apart.
* `Expr.sql_binary`: How an operator is written that is no range.
-/

namespace ColumnStore

namespace Value

section

variable {motive : Value → Prop}

/-- Induction over values, with the items of a list as members of it. -/
theorem mem_induction (null : motive null) (bool : ∀ b, motive (bool b))
    (int : ∀ n, motive (int n)) (uint : ∀ n, motive (uint n)) (float : ∀ x, motive (float x))
    (decimal : ∀ d, motive (decimal d)) (string : ∀ s, motive (string s))
    (date : ∀ d, motive (date d)) (dateTime : ∀ t, motive (dateTime t))
    (uuid : ∀ u, motive (uuid u)) (ipv4 : ∀ a, motive (ipv4 a)) (ipv6 : ∀ a, motive (ipv6 a))
    (enum : ∀ name, motive (enum name)) (json : ∀ j, motive (json j))
    (array : ∀ items, (∀ v ∈ items, motive v) → motive (array items))
    (tuple : ∀ items, (∀ v ∈ items, motive v) → motive (tuple items))
    (map : ∀ entries, (∀ e ∈ entries, motive e.1 ∧ motive e.2) → motive (map entries)) :
    ∀ v, motive v
  | .null => null
  | .bool b => bool b
  | .int n => int n
  | .uint n => uint n
  | .float x => float x
  | .decimal d => decimal d
  | .string s => string s
  | .date d => date d
  | .dateTime t => dateTime t
  | .uuid u => uuid u
  | .ipv4 a => ipv4 a
  | .ipv6 a => ipv6 a
  | .enum name => enum name
  | .json j => json j
  | .array items => array items fun v _ =>
      mem_induction null bool int uint float decimal string date dateTime uuid ipv4 ipv6 enum json
        array tuple map v
  | .tuple items => tuple items fun v _ =>
      mem_induction null bool int uint float decimal string date dateTime uuid ipv4 ipv6 enum json
        array tuple map v
  | .map entries => map entries fun e _ =>
      ⟨mem_induction null bool int uint float decimal string date dateTime uuid ipv4 ipv6 enum json
        array tuple map e.1,
       mem_induction null bool int uint float decimal string date dateTime uuid ipv4 ipv6 enum json
        array tuple map e.2⟩
termination_by v => sizeOf v
decreasing_by
  all_goals
    have hmem := List.sizeOf_lt_of_mem ‹_ ∈ _›
    simp only [Value.array.sizeOf_spec, Value.tuple.sizeOf_spec, Value.map.sizeOf_spec]
  · omega
  · omega
  · have hpair : sizeOf e = 1 + sizeOf e.1 + sizeOf e.2 := rfl
    omega
  · have hpair : sizeOf e = 1 + sizeOf e.1 + sizeOf e.2 := rfl
    omega

end

theorem listSql_eq_map (vs : List Value) : listSql vs = vs.map sql := by
  induction vs with
  | nil => rfl
  | cons v vs ih => rw [listSql, ih, List.map_cons]

theorem entriesSql_eq_flatMap (entries : List (Value × Value)) :
    entriesSql entries = entries.flatMap fun e => [sql e.1, sql e.2] := by
  induction entries with
  | nil => rfl
  | cons e es ih =>
      rcases e with ⟨k, x⟩
      rw [entriesSql, ih]
      rfl

end Value

namespace Expr

/-- An operator and its right side are a range with both bounds. -/
def Ranged (op : BinaryOp) (right : Expr) : Prop :=
  op = .between ∧ ∃ lo hi, right = list [lo, hi]

section

variable {motive : Expr → Prop}

/-- Induction over expressions. Ranges with both bounds are a case of their own. -/
theorem mem_induction (literal : ∀ v, motive (literal v)) (field : ∀ name, motive (field name))
    (raw : ∀ s, motive (raw s))
    (list : ∀ items, (∀ e ∈ items, motive e) → motive (list items))
    (call : ∀ f arguments, (∀ e ∈ arguments, motive e) → motive (call f arguments))
    (unary : ∀ op e, motive e → motive (unary op e))
    (range : ∀ x lo hi, motive x → motive lo → motive hi →
      motive (binary .between x (.list [lo, hi])))
    (binary : ∀ op l r, ¬ Ranged op r → motive l → motive r → motive (binary op l r)) (e : Expr) :
    motive e := by
  cases e with
  | literal v => exact literal v
  | field name => exact field name
  | raw s => exact raw s
  | list items =>
      exact list items fun e _ => mem_induction literal field raw list call unary range binary e
  | call f arguments =>
      exact call f arguments fun e _ =>
        mem_induction literal field raw list call unary range binary e
  | unary op e => exact unary op e (mem_induction literal field raw list call unary range binary e)
  | binary op l r =>
      have hl := mem_induction literal field raw list call unary range binary l
      -- The bounds of a range are deeper than its right side, which is no case itself.
      by_cases h : Ranged op r
      · rcases h with ⟨hop, lo, hi, hr⟩
        have hlo := mem_induction literal field raw list call unary range binary lo
        have hhi := mem_induction literal field raw list call unary range binary hi
        rw [hop, hr]
        exact range l lo hi hl hlo hhi
      · exact binary op l r h hl (mem_induction literal field raw list call unary range binary r)
termination_by sizeOf e
decreasing_by
  all_goals first
    | (have hmem := List.sizeOf_lt_of_mem ‹_ ∈ _›
       simp only [Expr.list.sizeOf_spec, Expr.call.sizeOf_spec]
       omega)
    | (simp only [hr, Expr.binary.sizeOf_spec, Expr.list.sizeOf_spec, List.cons.sizeOf_spec]
       omega)
    | (simp only [Expr.unary.sizeOf_spec, Expr.binary.sizeOf_spec]
       omega)

end

theorem listSql_eq_map (es : List Expr) : listSql es = es.map sql := by
  induction es with
  | nil => rfl
  | cons e es ih => rw [listSql, ih, List.map_cons]

/-- An operator that is no range is written between its two sides. -/
theorem sql_binary {op : BinaryOp} {r : Expr} (h : ¬ Ranged op r) (l : Expr) :
    sql (binary op l r) = joinedBy op.symbol (bracketedIf (l.needsBrackets op.precedence) (sql l))
      (bracketedIf (r.needsBracketsRight op) (sql r)) := by
  rw [sql]
  exact fun lo hi hop hr => h ⟨hop, lo, hi, hr⟩

end Expr

end ColumnStore
