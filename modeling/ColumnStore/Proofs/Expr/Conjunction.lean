import ColumnStore.Expr.Sql

/-!
# Conjunctions

A conjunction may be grouped in many ways, and how it is grouped cannot be seen in its text.
An operand of `AND` that is a conjunction itself stands without brackets on either side, and
whether any other operand stands in brackets depends on that operand alone. So the text of a
conjunction is that of its conjuncts, in order, with the word between them. A condition that
is no conjunction is an exception: where it stands alone it is no operand, and then a raw
text or a disjunction has no brackets.

## Main definitions

* `Expr.conjuncts`: The operands of a conjunction, taken apart as far as it goes.
* `Expr.conjunctSql`: The text of an expression as an operand of a conjunction.
* `Expr.Grouping`: Conditions that are joined by `AND` in some grouping.

## Theorems

* `Expr.conjunctSql_eq`: The text of a conjunction is that of its conjuncts.
* `Expr.sql_eq_of_conjuncts`: Expressions of the same conjuncts have the same text.
* `Expr.sql_conjunction?_eq`: So have lists of conditions.
* `Expr.Grouping.conjuncts_mapFields_expr`: The grouping does not change the conjuncts.
-/

namespace ColumnStore

namespace Expr

/-- The operands of a conjunction in order, where operands that are conjunctions are taken
    apart as well. Any other expression is its only conjunct. -/
def conjuncts : Expr → List Expr
  | binary .and l r => conjuncts l ++ conjuncts r
  | e => [e]

/-- The text of an expression as an operand of a conjunction. -/
def conjunctSql (e : Expr) : List Char :=
  bracketedIf (e.needsBrackets BinaryOp.and.precedence) e.sql

/-- Operands of a conjunction with the word between neighbours. -/
def andSeparated (operands : List (List Char)) : List Char :=
  [' ', 'A', 'N', 'D', ' '].intercalate operands

theorem andSeparated_cons_cons (x y : List Char) (r : List (List Char)) :
    andSeparated (x :: y :: r) = joinedBy BinaryOp.and.symbol x (andSeparated (y :: r)) := by
  simp [andSeparated, List.intercalate, joinedBy, BinaryOp.symbol]

theorem joinedBy_assoc (word : String) (x y z : List Char) :
    joinedBy word (joinedBy word x y) z = joinedBy word x (joinedBy word y z) := by
  simp only [joinedBy, List.append_assoc, List.cons_append]

theorem andSeparated_append {xs ys : List (List Char)} (hxs : xs ≠ []) (hys : ys ≠ []) :
    andSeparated (xs ++ ys) =
      joinedBy BinaryOp.and.symbol (andSeparated xs) (andSeparated ys) := by
  -- Induction on the first operands. The last of them is next to the first of the others.
  induction xs with
  | nil => exact absurd rfl hxs
  | cons x xs ih =>
    cases xs with
    | nil =>
      cases ys with
      | nil => exact absurd rfl hys
      | cons y ys =>
        have hone : andSeparated [x] = x := List.intercalate_singleton
        rw [List.singleton_append, andSeparated_cons_cons, hone]
    | cons x' xs =>
      rw [List.cons_append, List.cons_append, andSeparated_cons_cons, ← List.cons_append,
        ih (List.cons_ne_nil x' xs), andSeparated_cons_cons, joinedBy_assoc]

/-- An expression that is no conjunction is its only conjunct. -/
theorem conjuncts_of_ne {e : Expr} (h : ∀ l r, e ≠ binary .and l r) : e.conjuncts = [e] := by
  unfold conjuncts
  split
  · rename_i l r
    exact absurd rfl (h l r)
  · rfl

theorem conjuncts_ne_nil (e : Expr) : e.conjuncts ≠ [] := by
  unfold conjuncts
  split
  · rename_i l r
    exact List.append_ne_nil_of_left_ne_nil (conjuncts_ne_nil l) _
  · exact List.cons_ne_nil _ _

/-- The only operator as strong as `AND` is `AND`, of which a chain may be grouped either way.
    So an operand stands in brackets on the right exactly if it does on the left. -/
theorem needsBracketsRight_and (e : Expr) :
    e.needsBracketsRight .and = e.needsBrackets BinaryOp.and.precedence := by
  cases e with
  | binary op l r => cases op <;> rfl
  | unary op e => cases op <;> rfl
  | literal v => rfl
  | field name => rfl
  | call f es => rfl
  | raw s => rfl
  | list es => rfl

theorem sql_and (l r : Expr) :
    (binary .and l r).sql = joinedBy BinaryOp.and.symbol l.conjunctSql r.conjunctSql := by
  rw [sql, needsBracketsRight_and]
  · rfl
  · nofun

/-- A conjunction is no weaker than another one around it. -/
theorem conjunctSql_and (l r : Expr) : (binary .and l r).conjunctSql = (binary .and l r).sql :=
  rfl

/-- The text of an operand of a conjunction is that of its conjuncts. -/
theorem conjunctSql_eq (e : Expr) :
    e.conjunctSql = andSeparated (e.conjuncts.map conjunctSql) := by
  unfold conjuncts
  split
  · rename_i l r
    have hmap (e : Expr) : e.conjuncts.map conjunctSql ≠ [] :=
      fun h => conjuncts_ne_nil e (List.map_eq_nil_iff.1 h)
    rw [conjunctSql_and, sql_and, List.map_append, andSeparated_append (hmap l) (hmap r),
      ← conjunctSql_eq l, ← conjunctSql_eq r]
  · rw [List.map_singleton, andSeparated, List.intercalate_singleton]

/-- A conjunction has two conjuncts at least, and any other expression is its only one. -/
theorem sql_eq_or_conjuncts_eq (e : Expr) :
    (e.sql = e.conjunctSql ∧ 2 ≤ e.conjuncts.length) ∨ e.conjuncts = [e] := by
  by_cases h : ∃ l r, e = binary .and l r
  · rcases h with ⟨l, r, rfl⟩
    have hl := List.length_pos_iff.2 (conjuncts_ne_nil l)
    have hr := List.length_pos_iff.2 (conjuncts_ne_nil r)
    refine Or.inl ⟨(conjunctSql_and l r).symm, ?_⟩
    rw [conjuncts, List.length_append]
    omega
  · exact Or.inr (conjuncts_of_ne fun l r he => h ⟨l, r, he⟩)

/-- Expressions of the same conjuncts have the same text. -/
theorem sql_eq_of_conjuncts {e e' : Expr} (h : e.conjuncts = e'.conjuncts) : e.sql = e'.sql := by
  have htext : e.conjunctSql = e'.conjunctSql := by rw [conjunctSql_eq, conjunctSql_eq e', h]
  rcases sql_eq_or_conjuncts_eq e with ⟨hsql, htwo⟩ | hone
  · rcases sql_eq_or_conjuncts_eq e' with ⟨hsql', -⟩ | hone'
    · rw [hsql, hsql', htext]
    · rw [h, hone'] at htwo
      simp at htwo
  · rcases sql_eq_or_conjuncts_eq e' with ⟨-, htwo'⟩ | hone'
    · rw [← h, hone] at htwo'
      simp at htwo'
    · rw [hone, hone', List.cons.injEq] at h
      rw [h.1]

theorem conjuncts_foldl (es : List Expr) (e : Expr) :
    (es.foldl (binary .and) e).conjuncts = e.conjuncts ++ es.flatMap conjuncts := by
  induction es generalizing e with
  | nil => exact (List.append_nil _).symm
  | cons e' es ih =>
    rw [List.foldl_cons, ih, conjuncts, List.append_assoc, List.flatMap_cons]

/-- Lists of conditions that have the same conjuncts are written alike as one condition, or
    both are empty. -/
theorem sql_conjunction?_eq {es fs : List Expr}
    (h : es.flatMap conjuncts = fs.flatMap conjuncts) :
    (conjunction? es).map sql = (conjunction? fs).map sql := by
  have hne (e : Expr) (es : List Expr) : (e :: es).flatMap conjuncts ≠ [] := by
    rw [List.flatMap_cons]
    exact List.append_ne_nil_of_left_ne_nil (conjuncts_ne_nil e) _
  cases es with
  | nil =>
    cases fs with
    | nil => rfl
    | cons f fs => exact absurd h.symm (hne f fs)
  | cons e es =>
    cases fs with
    | nil => exact absurd h (hne e es)
    | cons f fs =>
      have hfold : (es.foldl (binary .and) e).conjuncts = (fs.foldl (binary .and) f).conjuncts := by
        rw [conjuncts_foldl, conjuncts_foldl]
        exact h
      exact congrArg some (sql_eq_of_conjuncts hfold)

/-- Conditions that are joined by `AND` two at a time. -/
inductive Grouping
  /-- A condition. -/
  | one (condition : Expr)
  /-- Two groups. -/
  | both (first second : Grouping)

namespace Grouping

/-- The conditions in order. -/
def conditions : Grouping → List Expr
  | one condition => [condition]
  | both first second => first.conditions ++ second.conditions

/-- The conjunction that is grouped so. -/
def expr : Grouping → Expr
  | one condition => condition
  | both first second => binary .and first.expr second.expr

theorem fields_expr (g : Grouping) : g.expr.fields = g.conditions.flatMap fields := by
  induction g with
  | one condition => exact (List.flatMap_singleton _ _).symm
  | both first second ihfirst ihsecond =>
    rw [expr, fields, ihfirst, ihsecond, conditions, List.flatMap_append]

/-- The grouping does not change the conjuncts, whatever the fields are renamed to. -/
theorem conjuncts_mapFields_expr (rename : String → String) (g : Grouping) :
    (g.expr.mapFields rename).conjuncts =
      g.conditions.flatMap fun condition => (condition.mapFields rename).conjuncts := by
  induction g with
  | one condition => exact (List.flatMap_singleton _ _).symm
  | both first second ihfirst ihsecond =>
    rw [expr, mapFields, conjuncts, ihfirst, ihsecond, conditions, List.flatMap_append]

end Grouping

end Expr

end ColumnStore
