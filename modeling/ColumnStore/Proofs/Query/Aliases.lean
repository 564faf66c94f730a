import ColumnStore.Proofs.Query.Reordering
import ColumnStore.Proofs.Statement.Insertion

/-!
# Names of Selected Expressions as Keys

Where expressions are selected, their names may be given as keys of the order and of groups.
A key is looked up among the fields of the models first, and among the names of selected
expressions after that. So such a key is never refused, but it names the selected expression
only if no field has its name, or if the first field that has it is stored in a column of
that name. Otherwise the key is the column of that field, which is another one.

Between the selection and the key there may be any calls but another selection. A join may be
among them, whose fields come before the names of selected expressions as well.

## Main definitions

* `Query.fieldNamed?`: The first field of a name in the models.
* `Query.Call.keepsSelection`: The calls that do not replace the selected expressions.

## Theorems

* `Query.aggregates_calls`: What is selected stays selected.
* `Query.key_eq_of_alias`: What a key is that names a selected expression.
* `Query.columnSql_inj`: Columns are written in different ways.
* `Query.keys_of_aliases`: When such a key is written as the name of the expression.
* `Query.alias_hidden_by_field`: A key that is not.
-/

namespace ColumnStore

namespace Query

/-- The first field of a name, in the model that is queried and then in the joined ones. -/
def fieldNamed? (q : Query) (name : String) : Option Field :=
  q.models.findSome? fun m => m.field? name

/-- Whether a call leaves the selected expressions as they are. -/
def Call.keepsSelection : Call → Bool
  | .aggregate _ => false
  | _ => true

variable {q q' : Query}

/-- A name is that of the column in which the first field of the name is stored. -/
theorem column?_eq (q : Query) (name : String) :
    q.column? name = (q.fieldNamed? name).map Field.column := by
  have hjoined (joins : List Join) :
      (joins.findSome? fun j => (j.model.field? name).map Field.column) =
        ((joins.map Join.model).findSome? fun m => m.field? name).map Field.column := by
    induction joins with
    | nil => rfl
    | cons j joins ih =>
      rw [List.map_cons, List.findSome?_cons, List.findSome?_cons]
      cases j.model.field? name with
      | some f => rfl
      | none => exact ih
  unfold column? fieldNamed? models
  rw [List.findSome?_cons]
  cases q.model.field? name with
  | some f => rfl
  | none => exact hjoined q.joins

theorem aggregates_call {c : Call} (hc : c.keepsSelection = true) (hq : q.call c = .ok q') :
    q'.aggregates = q.aggregates := by
  cases hclause : c.clause? with
  | some k => rw [eq_withClause_of_call hclause hq, aggregates_withClause]
  | none =>
    cases c with
    | aggregate selection => cases hc
    | join kind other shared =>
      rcases of_join hq with ⟨rfl, -⟩
      rfl
    | _ => cases hclause

/-- What is selected stays selected. -/
theorem aggregates_calls {calls : List Call} (hcalls : ∀ c ∈ calls, c.keepsSelection = true)
    (hq : calls.foldlM call q = .ok q') : q'.aggregates = q.aggregates := by
  induction calls generalizing q with
  | nil =>
    cases hq
    rfl
  | cons c calls ih =>
    rw [List.foldlM_cons] at hq
    rcases of_bind_eq_ok hq with ⟨q₁, hcall, hrest⟩
    rw [ih (fun c' hc' => hcalls c' (List.mem_cons_of_mem c hc')) hrest,
      aggregates_call (hcalls c List.mem_cons_self) hcall]

/-- A selection has the names that were given. -/
theorem aliases_aggregate {selection : List (String × Expr)} (hq : q.aggregate selection = .ok q') :
    q'.aggregates.map (·.1) = selection.map (·.1) := by
  unfold aggregate at hq
  dsimp only at hq
  rcases of_bind_eq_ok (of_guard hq).2 with ⟨resolved, hresolved, hq'⟩
  cases hq'
  exact (of_resolveSelection hresolved (by simp)).1

/-- A key that names a selected expression is the column of the first field of the name, and
    the name itself if there is none. -/
theorem key_eq_of_alias {a : String} (ha : a ∈ q.aggregates.map (·.1)) :
    q.key a = .ok ((q.column? a).getD a) := by
  have hany : (q.aggregates.any fun s => s.1 = a) = true := by
    rcases List.mem_map.1 ha with ⟨s, hs, rfl⟩
    exact List.any_eq_true.2 ⟨s, hs, decide_eq_true rfl⟩
  unfold key key?
  cases q.column? a with
  | some c => rfl
  | none => simp only [hany, if_true, Option.getD_none]

/-- Columns are written in different ways. -/
theorem columnSql_inj {c d : String} (h : columnSql c = columnSql d) : c = d := by
  have hread : Text.readName (columnSql c ++ []) = some (c, []) := Text.readName_quoteName c []
  rw [h, columnSql, Text.readName_quoteName] at hread
  exact (Prod.mk.inj (Option.some.inj hread)).1.symm

theorem splitSign_of_unsigned {a : String} (h : a.toList.head? ≠ some '-') :
    splitSign a = (a, false) := by
  unfold splitSign
  split
  · next name hname =>
    rw [hname] at h
    exact absurd rfl h
  · rfl

theorem splitSign_minus (a : String) : splitSign ("-" ++ a) = (a, true) := by
  unfold splitSign
  rw [String.toList_append]
  exact congrArg (·, true) String.ofList_toList

/-- A selected expression stands in the statement with its name after it. -/
theorem mem_selection_of_alias {a : String} (ha : a ∈ q.aggregates.map (·.1)) :
    ∃ e : Expr, e.sql ++ " AS ".toList ++ Text.quoteName a.toList ∈ q.selection := by
  rcases List.mem_map.1 ha with ⟨s, hs, rfl⟩
  have haggregate : q.isAggregate = true := by
    unfold isAggregate
    cases haggregates : q.aggregates with
    | nil =>
      rw [haggregates] at hs
      cases hs
    | cons s' rest => rfl
  refine ⟨s.2, ?_⟩
  rw [selection, if_pos haggregate]
  exact List.mem_map_of_mem hs

/-- After expressions were selected, the name of each may be given as a key of the order, with
    or without a minus sign before it, and as a key of groups. It is never refused, and the
    expression stands in the statement under this name. The key is written as the name if and
    only if no other column hides it: the first field of the models that has the name, if there
    is one, has to be stored in a column of that name. -/
theorem keys_of_aliases {q q₁ q₂ : Query} {selection : List (String × Expr)} {later : List Call}
    {a : String} (hq₁ : q.aggregate selection = .ok q₁)
    (hlater : ∀ c ∈ later, c.keepsSelection = true) (hq₂ : later.foldlM call q₁ = .ok q₂)
    (ha : a ∈ selection.map (·.1)) (hsign : a.toList.head? ≠ some '-') :
    (∃ e : Expr, e.sql ++ " AS ".toList ++ Text.quoteName a.toList ∈ q₂.selection) ∧
      ∃ column,
        q₂.orderBy [a] = .ok { q₂ with order := q₂.order ++ [⟨column, false⟩] } ∧
        q₂.orderBy ["-" ++ a] = .ok { q₂ with order := q₂.order ++ [⟨column, true⟩] } ∧
        q₂.groupBy [a] = .ok { q₂ with groups := q₂.groups ++ [column] } ∧
        ((sortSql ⟨column, false⟩ = Text.quoteName a.toList ∧
            sortSql ⟨column, true⟩ = Text.quoteName a.toList ++ " DESC".toList ∧
            columnSql column = Text.quoteName a.toList) ↔
          ∀ f, q₂.fieldNamed? a = some f → f.column = a) := by
  have hmem : a ∈ q₂.aggregates.map (·.1) := by
    rw [aggregates_calls hlater hq₂, aliases_aggregate hq₁]
    exact ha
  have hkey := key_eq_of_alias hmem
  have hascending : q₂.sortTerm a = .ok ⟨(q₂.column? a).getD a, false⟩ := by
    simp only [sortTerm, splitSign_of_unsigned hsign, hkey]
    rfl
  have hdescending : q₂.sortTerm ("-" ++ a) = .ok ⟨(q₂.column? a).getD a, true⟩ := by
    simp only [sortTerm, splitSign_minus, hkey]
    rfl
  have hcolumn : (q₂.column? a).getD a = a ↔ ∀ f, q₂.fieldNamed? a = some f → f.column = a := by
    rw [column?_eq]
    cases q₂.fieldNamed? a with
    | none => simp
    | some f => simp
  refine ⟨mem_selection_of_alias hmem, (q₂.column? a).getD a, ?_, ?_, ?_, ?_⟩
  · unfold orderBy
    rw [List.mapM_cons, hascending, List.mapM_nil]
    rfl
  · unfold orderBy
    rw [List.mapM_cons, hdescending, List.mapM_nil]
    rfl
  · unfold groupBy
    rw [List.mapM_cons, hkey, List.mapM_nil]
    rfl
  · rw [← hcolumn]
    constructor
    · rintro ⟨-, -, hsql⟩
      exact columnSql_inj hsql
    · intro hsame
      rw [hsame]
      exact ⟨List.append_nil _, rfl, rfl⟩

/-- A table of staff, in which a column has another name than its field. -/
def staff : Model :=
  ⟨"staff", [{ name := "name", type := .string },
    { name := "age", type := .word ⟨false, .w8⟩, stored := some "years" }], none, false, rfl⟩

/-- The age of the oldest. -/
def oldest : List (String × Expr) :=
  [("age", .call "max" [.field "age"]), ("most", .call "max" [.field "age"])]

/-- The name of the second expression is a key as it is given. -/
theorem keys_of_oldest :
    ∃ q₁ q₂, (all staff).aggregate oldest = .ok q₁ ∧
      [Call.groupBy ["name"], .distinctRows].foldlM call q₁ = .ok q₂ ∧
      ∃ column, q₂.orderBy ["-" ++ "most"] =
          .ok { q₂ with order := q₂.order ++ [⟨column, true⟩] } ∧
        sortSql ⟨column, true⟩ = "`most` DESC".toList := by
  refine ⟨_, _, rfl, rfl, ?_⟩
  rcases @keys_of_aliases (all staff) _ _ oldest [Call.groupBy ["name"], .distinctRows] "most"
    rfl (by decide) rfl (by decide) (by decide) with ⟨-, column, -, hdescending, -, hwritten⟩
  exact ⟨column, hdescending, (hwritten.2 fun f hf => by cases hf).2.1⟩

/-- The name of the first expression is that of a field, and as a key it is the column of the
    field: the ages are put in order and not the greatest age. -/
theorem alias_hidden_by_field :
    ∃ q₁ q₂, (all staff).aggregate oldest = .ok q₁ ∧ q₁.orderBy ["-age"] = .ok q₂ ∧
      aliasSql ("age", .call "max" [.field "years"]) ∈ q₁.selection ∧
      q₂.orderClause = " ORDER BY `years` DESC".toList :=
  ⟨_, _, rfl, rfl, List.mem_cons_self, rfl⟩

end Query

end ColumnStore
