import ColumnStore.Proofs.Expr.Conjunction
import ColumnStore.Proofs.Query.References

/-!
# Filters of a Query

Conditions can be given to a query one at a time, or several at once, joined by `AND` in any
grouping. It makes no difference: the query is refused for the same name, or its statements
are the same texts.

A run of filters is described by its conditions alone. It is refused for the first of their
names, in the order in which they are read, that is no field, since no filter changes what
the others may name; and if it is not refused, the conditions stand after those that the
query had. The statements then depend on the conjuncts of all conditions, and not on how
they were put together.

## Theorems

* `Query.foldlM_filter`: What a run of filters does.
* `Query.statements_of_conjuncts`: Queries whose conditions have the same conjuncts.
* `Query.statements_of_groupings`: Conditions that are given in two ways.
* `Query.statements_of_three_conditions`: Three conditions in two ways.
-/

namespace ColumnStore

namespace Query

open ColumnStore.Expr (Grouping conjuncts)

/-- A name that is no field of the model or of a joined one. -/
def isUnknown (q : Query) (name : String) : Bool :=
  (q.column? name).isNone

/-- An expression in terms of columns. -/
def inColumns (q : Query) (e : Expr) : Expr :=
  e.mapFields fun name => (q.column? name).getD name

/-- A filter is refused for the first name in it that is no field. -/
theorem filter_eq (q : Query) (e : Expr) :
    q.filter e = match e.fields.find? q.isUnknown with
      | some name => .error (q.unknownField name)
      | none => .ok { q with filters := q.filters ++ [q.inColumns e] } := by
  have hfind : (e.fields.find? fun name => (q.column? name).isNone) = e.fields.find? q.isUnknown :=
    rfl
  unfold filter resolve
  rw [hfind]
  cases e.fields.find? q.isUnknown with
  | some name => rfl
  | none => rfl

/-- A run of filters is refused for the first name in them that is no field. If there is none,
    the conditions stand after those that the query had. -/
theorem foldlM_filter (q : Query) (es : List Expr) :
    es.foldlM filter q = match (es.flatMap Expr.fields).find? q.isUnknown with
      | some name => .error (q.unknownField name)
      | none => .ok { q with filters := q.filters ++ es.map q.inColumns } := by
  -- Induction on the conditions. The query after the first one knows the same names.
  induction es generalizing q with
  | nil =>
    simp only [List.foldlM_nil, List.flatMap_nil, List.find?_nil, List.map_nil, List.append_nil]
    rfl
  | cons e es ih =>
    rw [List.foldlM_cons, filter_eq, List.flatMap_cons, List.find?_append]
    cases hfirst : e.fields.find? q.isUnknown with
    | some name => rfl
    | none =>
      refine (ih { q with filters := q.filters ++ [q.inColumns e] }).trans ?_
      have hsame : isUnknown { q with filters := q.filters ++ [q.inColumns e] } = q.isUnknown := rfl
      rw [hsame, Option.none_or]
      cases (es.flatMap Expr.fields).find? q.isUnknown with
      | some name => rfl
      | none =>
        have hmore : q.filters ++ [q.inColumns e] ++ es.map q.inColumns =
            q.filters ++ (e :: es).map q.inColumns := by
          rw [List.append_assoc, List.map_cons, List.singleton_append]
        exact congrArg (fun filters => Except.ok { q with filters := filters }) hmore

/-- Queries that differ in their conditions only, and there in the grouping only, have the same
    statements. -/
theorem statements_of_conjuncts (q : Query) {es fs : List Expr}
    (h : es.flatMap conjuncts = fs.flatMap conjuncts) :
    let q₁ := { q with filters := es }
    let q₂ := { q with filters := fs }
    q₁.select = q₂.select ∧ q₁.count = q₂.count ∧ q₁.existence = q₂.existence ∧
      q₁.delete = q₂.delete := by
  intro q₁ q₂
  have hsql : q₁.condition?.map Expr.sql = q₂.condition?.map Expr.sql := Expr.sql_conjunction?_eq h
  have hwhere : q₁.whereClause = q₂.whereClause := by
    have hclause (q : Query) :
        q.whereClause = ((q.condition?.map Expr.sql).map (" WHERE ".toList ++ ·)).getD [] := by
      unfold whereClause
      cases q.condition? with
      | none => rfl
      | some c => rfl
    rw [hclause, hclause, hsql]
  have htext : q₁.selectText = q₂.selectText := by
    unfold selectText
    rw [hwhere]
    rfl
  have hsource : q₁.source = q₂.source := by
    unfold source
    rw [hwhere, htext]
    rfl
  refine ⟨?_, ?_, ?_, ?_⟩
  · rw [select, select, htext]
  · rw [count, count, hsource]
  · rw [existence, existence, hsource]
  · unfold delete
    rw [hsql]
    rfl

/-- Conditions may be given to a query in any number of filters, and joined by `AND` in each of
    them in any grouping. If two ways have the same conditions in the same order, both are
    refused for the first name in them that is no field, or neither is, and then all statements
    of the two queries are the same. -/
theorem statements_of_groupings (q : Query) {ways ways' : List Grouping}
    (h : ways.flatMap Grouping.conditions = ways'.flatMap Grouping.conditions) :
    (∃ name, ((ways.flatMap Grouping.conditions).flatMap Expr.fields).find?
          (fun name => (q.column? name).isNone) = some name ∧
        (ways.map Grouping.expr).foldlM filter q = .error (.noSuchField q.model.table name) ∧
        (ways'.map Grouping.expr).foldlM filter q = .error (.noSuchField q.model.table name)) ∨
      ∃ q₁ q₂, (ways.map Grouping.expr).foldlM filter q = .ok q₁ ∧
        (ways'.map Grouping.expr).foldlM filter q = .ok q₂ ∧
        q₁.select = q₂.select ∧ q₁.count = q₂.count ∧ q₁.existence = q₂.existence ∧
        q₁.delete = q₂.delete := by
  have hfields (ways : List Grouping) : (ways.map Grouping.expr).flatMap Expr.fields =
      (ways.flatMap Grouping.conditions).flatMap Expr.fields := by
    rw [List.flatMap_map, List.flatMap_assoc]
    exact List.flatMap_congr fun g _ => g.fields_expr
  have hconjuncts (ways : List Grouping) :
      ((ways.map Grouping.expr).map q.inColumns).flatMap conjuncts =
        (ways.flatMap Grouping.conditions).flatMap fun e => (q.inColumns e).conjuncts := by
    rw [List.flatMap_map, List.flatMap_map, List.flatMap_assoc]
    exact List.flatMap_congr fun g _ => g.conjuncts_mapFields_expr _
  rw [foldlM_filter, foldlM_filter, hfields, hfields, ← h]
  cases hunknown : ((ways.flatMap Grouping.conditions).flatMap Expr.fields).find? q.isUnknown with
  | some name => exact Or.inl ⟨name, hunknown, rfl, rfl⟩
  | none =>
    refine Or.inr ⟨_, _, rfl, rfl, q.statements_of_conjuncts ?_⟩
    rw [List.flatMap_append, List.flatMap_append, hconjuncts, hconjuncts, h]

/-- A condition in a text that is taken as it is. -/
def evenOrDear : Expr := .raw "even OR dear"

/-- A conjunction. -/
def fairPrice : Expr :=
  .binary .and (.binary .gt (.field "price") (.literal (.int 0)))
    (.binary .lt (.field "price") (.literal (.int 9)))

/-- A comparison. -/
def firstClient : Expr := .binary .eq (.field "client") (.literal (.int 1))

/-- The three conditions in two filters. -/
def inTwoFilters : List Grouping :=
  [.one evenOrDear, .both (.one fairPrice) (.one firstClient)]

/-- The three conditions in one filter. -/
def inOneFilter : List Grouping :=
  [.both (.both (.one evenOrDear) (.one fairPrice)) (.one firstClient)]

/-- The same sales are deleted in both ways. -/
theorem statements_of_three_conditions :
    inTwoFilters.flatMap Grouping.conditions = inOneFilter.flatMap Grouping.conditions ∧
      ∃ q₁ q₂, (inTwoFilters.map Grouping.expr).foldlM filter (all sales) = .ok q₁ ∧
        (inOneFilter.map Grouping.expr).foldlM filter (all sales) = .ok q₂ ∧
        q₁.filters.length = 2 ∧ q₂.filters.length = 1 ∧ q₁.delete = q₂.delete ∧
        q₂.delete = .ok (.command ("ALTER TABLE `sales` DELETE WHERE (even OR dear)"
          ++ " AND `price` > 0 AND `price` < 9 AND `client` = 1").toList) := by
  have hconditions :
      inTwoFilters.flatMap Grouping.conditions = inOneFilter.flatMap Grouping.conditions := rfl
  refine ⟨hconditions, ?_⟩
  rcases statements_of_groupings (all sales) hconditions with
    ⟨name, hunknown, -⟩ | ⟨q₁, q₂, hq₁, hq₂, -, -, -, hdelete⟩
  · cases hunknown
  · refine ⟨q₁, q₂, hq₁, hq₂, ?_, ?_, hdelete, ?_⟩
    · cases hq₁
      rfl
    · cases hq₂
      rfl
    · cases hq₂
      rfl

end Query

end ColumnStore
