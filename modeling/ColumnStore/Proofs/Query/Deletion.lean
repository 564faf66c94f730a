import ColumnStore.Proofs.Query.Counting
import ColumnStore.Proofs.Query.References
import Mathlib.Data.List.Perm.Basic

/-!
# Deleted and Returned Rows

A deletion takes the rows of a table that meet a condition. What it should take are the rows
that the query returns, and a query is refused if its condition alone does not describe them.
The two are compared here for every server: what the clauses of a statement mean is left open,
and nothing is asked of `DISTINCT`, of groups, of joined tables, of `FINAL` and of a window but
that they change nothing where they are absent. An order may put the rows in any order.

Of these clauses all but one lead to a refusal. A query that reads its rows as if all merges
had been done is not refused, although the table has rows that it does not return: its deletion
takes a condition of the rows that are stored. So a server can tell the deleted rows from the
returned ones exactly if the query reads merged rows.

## Main definitions

* `RowServer`: What the clauses mean to a server.
* `RowServer.answer`: The rows that a statement returns.
* `Deletion`, `Query.deletion`: A statement that deletes rows, and that of a query.
* `RowServer.matched`: The rows that a deletion takes.
* `Query.DeletesAnswer`: Whether these are the rows that the query returns.
* `RowServer.ofVersions`: A server that keeps versions of rows until they are merged.

## Theorems

* `Query.delete_eq_ok_iff`: The queries that are not refused, and their statement.
* `Query.deletesAnswer`: Without merged reading the returned rows are deleted.
* `Query.deletes_answer_iff`: Only merged reading makes a difference.
* `Query.old_version_is_deleted`: A row is deleted that was not returned.
-/

namespace ColumnStore

/-- What the clauses of a statement mean to a server. -/
structure RowServer (Row : Type) where
  /-- The rows of tables. -/
  tables : List Char → List Row
  /-- Whether a row meets a condition. -/
  meets : List Char → Row → Bool
  /-- What is selected of a row. -/
  value : List (List Char) → Row → Row
  /-- What the other clauses make of the rows that meet the condition. -/
  results : Clauses → List Row → List Row
  /-- Every row meets a condition that is absent. -/
  meets_nil (row : Row) : meets [] row = true
  /-- Every row meets a condition that is a true constant. -/
  meets_one (row : Row) : meets " WHERE 1".toList row = true
  /-- If nothing but fields is selected, there is a result for each row, in any order. -/
  perm_results (q : Query) (fields : List Field) (c : Clauses) (rows : List Row)
    (hselection : c.selection = fields.map q.fieldSql) (hdistinct : c.distinct = false)
    (hgroups : c.groups = []) (hwindow : c.window = []) :
    (results c rows).Perm (rows.map (value c.selection))

/-- A statement that deletes rows of a table. -/
structure Deletion where
  /-- The table. -/
  table : List Char
  /-- The condition. -/
  condition : List Char

/-- The text of a deletion. -/
def Deletion.text (d : Deletion) : List Char :=
  "ALTER TABLE ".toList ++ d.table ++ " DELETE".toList ++ d.condition

namespace RowServer

variable {Row : Type} (I : RowServer Row)

/-- The rows that a statement returns. -/
def answer : Select → List Row
  | .ofTables tables c => I.results c ((I.tables tables).filter (I.meets c.condition))
  | .ofRows inner c => I.results c ((answer inner).filter (I.meets c.condition))

/-- The rows that a deletion takes. -/
def matched (d : Deletion) : List Row :=
  (I.tables (" FROM ".toList ++ d.table)).filter (I.meets d.condition)

/-- A table of one row, which is not there for any other clause of tables than that of the
    table alone. -/
def unread (table : List Char) : RowServer Unit where
  tables clause := if clause = " FROM ".toList ++ table then [()] else []
  meets _ _ := true
  value _ row := row
  results _ rows := rows
  meets_nil _ := rfl
  meets_one _ := rfl
  perm_results _ _ _ rows _ _ _ _ := by rw [List.map_id']

end RowServer

namespace Query

/-- The statement that deletes the rows under the condition of a query. -/
def deletion (q : Query) : Deletion where
  table := q.model.tableSql
  condition := " WHERE ".toList ++ (q.condition?.map Expr.sql).getD ['1']

/-- Whether a deletion takes the rows that the query returns. -/
def DeletesAnswer (q : Query) {Row : Type} (I : RowServer Row) : Prop :=
  (I.answer q.selectTree).Perm ((I.matched q.deletion).map (I.value q.selection))

theorem deletion_text (q : Query) :
    q.deletion.text = "ALTER TABLE ".toList ++ q.model.tableSql ++ " DELETE WHERE ".toList ++
      (q.condition?.map Expr.sql).getD ['1'] := by
  have hwords : " DELETE WHERE ".toList = " DELETE".toList ++ " WHERE ".toList := by decide
  unfold Deletion.text deletion
  rw [hwords, ← List.append_assoc, ← List.append_assoc]

/-- A query is refused if its model is only read, or if something else than a condition
    describes its rows. Merged reading is not asked about. -/
theorem delete_eq_ok_iff {q : Query} {s : Statement} :
    q.delete = .ok s ↔
      q.model.readonly = false ∧ q.isPlain = true ∧ s = .command q.deletion.text := by
  rw [delete, deletion_text]
  cases q.model.readonly with
  | true => exact ⟨nofun, fun h => absurd h.1 (by decide)⟩
  | false =>
    cases q.isPlain with
    | false => exact ⟨nofun, fun h => absurd h.2.1 (by decide)⟩
    | true =>
      constructor
      · intro h
        exact ⟨rfl, rfl, (Except.ok.inj h).symm⟩
      · rintro ⟨-, -, rfl⟩
        rfl

variable {Row : Type} (I : RowServer Row)

/-- A deletion without a condition of its own has one that every row meets. -/
theorem meets_deletion (q : Query) (row : Row) :
    I.meets q.deletion.condition row = I.meets q.whereClause row := by
  unfold deletion whereClause
  cases q.condition? with
  | some c => rfl
  | none => exact (I.meets_one row).trans (I.meets_nil row).symm

/-- If nothing but a condition describes the rows of a query, there is a result for each row of
    its tables that meets the condition. -/
theorem perm_answer {q : Query} (h : q.isPlain = true) :
    (I.answer q.selectTree).Perm
      (((I.tables q.fromClause).filter (I.meets q.whereClause)).map (I.value q.selection)) := by
  simp only [isPlain, Bool.and_eq_true, Bool.not_eq_true'] at h
  rcases h with ⟨⟨⟨⟨hdistinct, hgroups⟩, haggregates⟩, -⟩, hwindow⟩
  have hselection : q.selection = q.selectedFields.map q.fieldSql := by
    rw [selection, isAggregate, haggregates]
    rfl
  have hgroup : q.groupClause = [] := by rw [groupClause, if_pos hgroups]
  have hwhole : windowClause q.window = [] := by rw [windowClause, if_pos hwindow]
  exact I.perm_results q q.selectedFields _ _ hselection hdistinct hgroup hwhole

/-- The clause of the tables of a query that is not joined. -/
theorem fromClause_of_isPlain {q : Query} (h : q.isPlain = true) :
    q.fromClause = (" FROM ".toList ++ q.model.tableSql) ++
      (if q.merged then " FINAL".toList else []) := by
  have hjoins : q.joins = [] := by
    simp only [isPlain, Bool.and_eq_true] at h
    exact List.isEmpty_iff.1 h.1.2
  unfold fromClause
  rw [hjoins, List.flatMap_nil, List.append_nil]

/-- If a query is not refused and does not read merged rows, its deletion takes the rows that
    it returns. -/
theorem deletesAnswer {q : Query} (h : q.isPlain = true) (hmerged : q.merged = false) :
    q.DeletesAnswer I := by
  have hfrom : q.fromClause = " FROM ".toList ++ q.deletion.table := by
    rw [fromClause_of_isPlain h, hmerged, if_neg Bool.false_ne_true, List.append_nil, deletion]
  have hmeets : I.meets q.deletion.condition = I.meets q.whereClause :=
    funext (meets_deletion I q)
  rw [DeletesAnswer, RowServer.matched, hmeets, ← hfrom]
  exact perm_answer I h

/-- Merged rows may be missing where the table has a row. -/
theorem not_deletesAnswer {q : Query} (h : q.isPlain = true) (hmerged : q.merged = true) :
    ¬ q.DeletesAnswer (RowServer.unread q.model.tableSql) := by
  have hfrom : q.fromClause ≠ " FROM ".toList ++ q.model.tableSql := by
    intro heq
    rw [fromClause_of_isPlain h, hmerged, if_pos rfl] at heq
    simp at heq
  have hanswer : (RowServer.unread q.model.tableSql).answer q.selectTree = [] := by
    rw [selectTree, RowServer.answer, RowServer.unread]
    dsimp only
    rw [if_neg hfrom, List.filter_nil]
  have hmatched : (RowServer.unread q.model.tableSql).matched q.deletion = [()] := by
    rw [RowServer.matched, RowServer.unread, deletion]
    dsimp only
    rw [if_pos rfl]
    rfl
  intro hperm
  rw [DeletesAnswer, hanswer, hmatched] at hperm
  exact List.not_perm_nil_cons _ _ hperm

/-- A query whose deletion is not refused has the statement of its deletion, and the deletion
    takes the rows that the query returns, whatever the clauses mean to a server, exactly if
    the query does not read merged rows. -/
theorem deletes_answer_iff {q : Query} {s : Statement} (h : q.delete = .ok s) :
    s = .command q.deletion.text ∧ q.select = .query q.selectTree.text ∧
      ((∀ (Row : Type) (I : RowServer Row), q.DeletesAnswer I) ↔ q.merged = false) := by
  rcases delete_eq_ok_iff.1 h with ⟨-, hplain, hs⟩
  refine ⟨hs, rfl, ?_, fun hmerged Row I => deletesAnswer I hplain hmerged⟩
  intro hall
  by_contra hmerged
  exact not_deletesAnswer hplain (eq_true_of_ne_false hmerged) (hall Unit _)

end Query

/-- A server with one table, of keys with values. A later value of a key is a new version, and
    merged rows have the last version of each key. Any condition is that the value is not zero.
    Nothing is grouped, and no part of the rows is cut off. -/
def RowServer.ofVersions (content : List (Nat × Nat)) : RowServer (Nat × Nat) where
  tables clause :=
    if " FINAL".toList.isSuffixOf clause then
      content.filter fun row => content.reverse.find? (fun later => later.1 = row.1) = some row
    else content
  meets condition row := condition = [] || condition = " WHERE 1".toList || 0 < row.2
  value _ row := row
  results _ rows := rows
  meets_nil _ := rfl
  meets_one _ := rfl
  perm_results _ _ _ rows _ _ _ _ := by rw [List.map_id']

namespace Query

/-- Visitors that were seen, of three. -/
def seenVisitors : Query :=
  { all visitors with filters := [.binary .gt (.field "id") (.literal (.int 0))] }

/-- Of three stored rows the two are deleted that are returned. -/
theorem deletion_of_seenVisitors :
    seenVisitors.delete = .ok (.command "ALTER TABLE `visitors` DELETE WHERE `id` > 0".toList) ∧
      ((RowServer.ofVersions [(1, 4), (2, 0), (1, 3)]).answer seenVisitors.selectTree).Perm
        ((RowServer.ofVersions [(1, 4), (2, 0), (1, 3)]).matched seenVisitors.deletion) ∧
      (RowServer.ofVersions [(1, 4), (2, 0), (1, 3)]).matched seenVisitors.deletion =
        [(1, 4), (1, 3)] := by
  have hdelete : seenVisitors.delete =
      .ok (.command "ALTER TABLE `visitors` DELETE WHERE `id` > 0".toList) := rfl
  have hperm := (deletes_answer_iff hdelete).2.2.2 rfl _
    (RowServer.ofVersions [(1, 4), (2, 0), (1, 3)])
  exact ⟨hdelete, hperm.trans (.of_eq (List.map_id' _)), by decide⟩

/-- A table of prices, of which merges keep the last of each good. -/
def prices : Model :=
  ⟨"prices", [{ name := "good", type := .word ⟨false, .w64⟩ },
      { name := "price", type := .word ⟨false, .w64⟩ }],
    some (.mergeTree { MergeTree.sortedBy ["good"] with rule := .replace none }), false, rfl⟩

/-- One price is returned, and the one before it is deleted as well. -/
theorem old_version_is_deleted :
    ∃ q s, [Call.mergedRows].foldlM call (all prices) = .ok q ∧ q.delete = .ok s ∧
      s.text = "ALTER TABLE `prices` DELETE WHERE 1" ∧
      (RowServer.ofVersions [(1, 3), (1, 7)]).answer q.selectTree = [(1, 7)] ∧
      (RowServer.ofVersions [(1, 3), (1, 7)]).matched q.deletion = [(1, 3), (1, 7)] :=
  ⟨_, _, rfl, rfl, rfl, by decide, by decide⟩

end Query

end ColumnStore
