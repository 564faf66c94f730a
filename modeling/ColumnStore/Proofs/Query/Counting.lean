import ColumnStore.Proofs.Query.Slicing
import Mathlib.Data.List.Dedup

/-!
# Counting and Asking

The rows of a query can be returned, counted, or asked for, each with a statement of its own.
The three statements agree: the number that the second one returns is the number of rows that
the first one returns, and the third one returns a row exactly if there are any.

A statement is cut at its clauses, and each clause means something to a server: which rows the
tables have, merged and joined as it says; which of them are left under the condition; what
becomes of them by grouping, by what is selected and by taking equal ones once; their order;
and which part of them is returned. What exactly the clauses mean is left open. It is asked
only that a clause that is absent changes nothing, that an order keeps the number of rows, and
so does what is selected if it is a value of each row and rows are neither grouped nor taken
once, that `count(*)` is the number of rows, and that `LIMIT 1` leaves a row if there is one.

A short statement is used where nothing but tables and a condition describe the rows. Every
other clause that could change their number is in a statement that stands inside.

## Main definitions

* `Clauses`, `Select`: A statement that returns rows, cut at its clauses.
* `Interpretation`: What the clauses mean.
* `Interpretation.answer`: The rows that a statement returns.
* `Query.selectTree`, `Query.countTree`, `Query.existenceTree`: The statements of a query.
* `Interpretation.ofNumbers`: A server with one table.

## Theorems

* `Query.text_about`, `Query.text_countTree`, `Query.text_existenceTree`: Their texts.
* `Query.length_answer_selectTree`: The rows where nothing but a condition describes them.
* `Query.answers_agree`: The three statements agree.
* `Query.answers_of_visitors`: Numbers that are taken once each.
-/

namespace ColumnStore

/-- The clauses of a statement that returns rows, but for the one that says from where. The text
    of a clause that is absent is empty. -/
structure Clauses where
  /-- Whether equal rows are returned once. -/
  distinct : Bool := false
  /-- What is selected. -/
  selection : List (List Char)
  /-- The condition. -/
  condition : List Char := []
  /-- The groups. -/
  groups : List Char := []
  /-- The order. -/
  order : List Char := []
  /-- The part that is returned. -/
  window : List Char := []

/-- The text of a statement, given where its rows come from. -/
def Clauses.text (c : Clauses) (source : List Char) : List Char :=
  "SELECT ".toList ++ (if c.distinct then "DISTINCT ".toList else []) ++ commaSeparated c.selection
    ++ source ++ c.condition ++ c.groups ++ c.order ++ c.window

theorem Clauses.text_one (item condition window source : List Char) :
    Clauses.text { selection := [item], condition := condition, window := window } source =
      "SELECT ".toList ++ item ++ source ++ condition ++ window := by
  have hitem : commaSeparated [item] = item := by
    simp [commaSeparated, List.intercalate]
  unfold text
  dsimp only
  rw [hitem, if_neg Bool.false_ne_true, List.append_nil, List.append_nil, List.append_nil]

/-- A statement that returns rows. -/
inductive Select
  /-- Rows of tables. -/
  | ofTables (tables : List Char) (clauses : Clauses)
  /-- Rows that another statement returns. -/
  | ofRows (inner : Select) (clauses : Clauses)

/-- The text of a statement. -/
def Select.text : Select → List Char
  | ofTables tables c => c.text tables
  | ofRows inner c => c.text (" FROM ".toList ++ bracketed inner.text)

/-- What the clauses of a statement mean. -/
structure Interpretation (Row : Type) where
  /-- The rows of tables. -/
  tables : List Char → List Row
  /-- The rows under a condition. -/
  filter : List Char → List Row → List Row
  /-- The rows that are selected, once each or not, given the groups. -/
  results : Bool → List (List Char) → List Char → List Row → List Row
  /-- The rows in an order. -/
  sort : List Char → List Row → List Row
  /-- A part of the rows. -/
  cut : List Char → List Row → List Row
  /-- A row that is a number. -/
  number : Nat → Row
  /-- What is selected is a value of each row. -/
  IsValue : List Char → Prop
  /-- Without a condition all rows are left. -/
  filter_nil (rows : List Row) : filter [] rows = rows
  /-- Without an order the rows stay as they are. -/
  sort_nil (rows : List Row) : sort [] rows = rows
  /-- No order changes the number of rows. -/
  length_sort (order : List Char) (rows : List Row) : (sort order rows).length = rows.length
  /-- Without a part all rows are returned. -/
  cut_nil (rows : List Row) : cut [] rows = rows
  /-- One row is returned if there is one. -/
  cut_one (rows : List Row) : cut " LIMIT 1".toList rows = [] ↔ rows = []
  /-- A selected field is a value of each row. -/
  isValue_field (q : Query) (f : Field) : IsValue (q.fieldSql f)
  /-- A constant is a value of each row. -/
  isValue_one : IsValue ['1']
  /-- There is one result for each row if values of the rows are selected. -/
  length_results (items : List (List Char)) (rows : List Row) (h : ∀ item ∈ items, IsValue item) :
    (results false items [] rows).length = rows.length
  /-- The rows are counted. -/
  results_count (rows : List Row) :
    results false ["count(*)".toList] [] rows = [number rows.length]

namespace Interpretation

variable {Row : Type} (I : Interpretation Row)

/-- What clauses make of rows. -/
def apply (c : Clauses) (rows : List Row) : List Row :=
  I.cut c.window (I.sort c.order (I.results c.distinct c.selection c.groups
    (I.filter c.condition rows)))

/-- The rows that a statement returns. -/
def answer : Select → List Row
  | .ofTables tables c => I.apply c (I.tables tables)
  | .ofRows inner c => I.apply c (answer inner)

/-- The number of rows under a condition. -/
theorem apply_count (condition : List Char) (rows : List Row) :
    I.apply { selection := ["count(*)".toList], condition := condition } rows =
      [I.number (I.filter condition rows).length] := by
  rw [apply, I.results_count, I.sort_nil, I.cut_nil]

/-- A row if there is one under a condition. -/
theorem apply_one_eq_nil_iff (condition : List Char) (rows : List Row) :
    I.apply { selection := [['1']], condition := condition, window := " LIMIT 1".toList } rows = [] ↔
      I.filter condition rows = [] := by
  have hone : ∀ item ∈ [['1']], I.IsValue item := by
    intro item hitem
    rw [List.mem_singleton.1 hitem]
    exact I.isValue_one
  rw [apply, I.sort_nil, I.cut_one, ← List.length_eq_zero_iff, I.length_results _ _ hone,
    List.length_eq_zero_iff]

end Interpretation

namespace Query

/-- The statement that returns the rows. -/
def selectTree (q : Query) : Select :=
  .ofTables q.fromClause
    { distinct := q.distinct
      selection := q.selection
      condition := q.whereClause
      groups := q.groupClause
      order := q.orderClause
      window := windowClause q.window }

/-- A statement about the number of rows: under the same condition of the same tables, or of the
    rows that are returned. -/
def about (q : Query) (item window : List Char) : Select :=
  if q.isPlain then
    .ofTables q.fromClause { selection := [item], condition := q.whereClause, window := window }
  else .ofRows q.selectTree { selection := [item], window := window }

/-- The statement that counts the rows. -/
def countTree (q : Query) : Select :=
  q.about "count(*)".toList []

/-- The statement that asks for a row. -/
def existenceTree (q : Query) : Select :=
  q.about ['1'] " LIMIT 1".toList

theorem text_selectTree (q : Query) : q.selectTree.text = q.selectText := rfl

theorem text_about (q : Query) (item window : List Char) :
    (q.about item window).text = "SELECT ".toList ++ item ++ q.source ++ window := by
  unfold about source
  cases q.isPlain with
  | true =>
    rw [if_pos rfl, if_pos rfl, Select.text, Clauses.text_one, List.append_assoc _ q.fromClause]
  | false =>
    rw [if_neg Bool.false_ne_true, if_neg Bool.false_ne_true, Select.text, Clauses.text_one,
      List.append_nil, text_selectTree]

theorem text_countTree (q : Query) : .query q.countTree.text = q.count := by
  rw [countTree, text_about, List.append_nil]
  rfl

theorem text_existenceTree (q : Query) : .query q.existenceTree.text = q.existence := by
  rw [existenceTree, text_about]
  rfl

variable {Row : Type} (I : Interpretation Row)

/-- If nothing but a condition describes the rows, as many are returned as there are under it. -/
theorem length_answer_selectTree {q : Query} (h : q.isPlain = true) :
    (I.answer q.selectTree).length = (I.filter q.whereClause (I.tables q.fromClause)).length := by
  simp only [isPlain, Bool.and_eq_true, Bool.not_eq_true'] at h
  rcases h with ⟨⟨⟨⟨hdistinct, hgroups⟩, haggregates⟩, -⟩, hwindow⟩
  have hselection : q.selection = q.selectedFields.map q.fieldSql := by
    rw [selection, isAggregate, haggregates]
    rfl
  have hvalues : ∀ item ∈ q.selection, I.IsValue item := by
    intro item hitem
    rw [hselection, List.mem_map] at hitem
    rcases hitem with ⟨f, -, rfl⟩
    exact I.isValue_field q f
  have hgroup : q.groupClause = [] := by rw [groupClause, if_pos hgroups]
  have hwhole : windowClause q.window = [] := by rw [windowClause, if_pos hwindow]
  rw [selectTree, Interpretation.answer, Interpretation.apply]
  dsimp only
  rw [hwhole, I.cut_nil, I.length_sort, hdistinct, hgroup, I.length_results _ _ hvalues]

/-- The three statements agree, whatever is in the tables and whatever the clauses mean. -/
theorem answers_agree (q : Query) :
    (q.select = .query q.selectTree.text ∧ q.count = .query q.countTree.text ∧
        q.existence = .query q.existenceTree.text) ∧
      I.answer q.countTree = [I.number (I.answer q.selectTree).length] ∧
      (I.answer q.existenceTree ≠ [] ↔ 0 < (I.answer q.selectTree).length) := by
  refine ⟨⟨rfl, q.text_countTree.symm, q.text_existenceTree.symm⟩, ?_⟩
  unfold countTree existenceTree about
  cases hplain : q.isPlain with
  | true =>
    -- The short statements have the same tables and the same condition.
    have hlength := length_answer_selectTree I hplain
    simp only [if_true, Interpretation.answer]
    rw [I.apply_count, hlength, List.length_pos_iff, ne_eq, ne_eq, I.apply_one_eq_nil_iff]
    exact ⟨rfl, Iff.rfl⟩
  | false =>
    -- The rows that are returned stand inside, and without a condition all of them are left.
    simp only [Bool.false_eq_true, if_false, Interpretation.answer]
    rw [I.apply_count, I.filter_nil, List.length_pos_iff, ne_eq, ne_eq, I.apply_one_eq_nil_iff,
      I.filter_nil]
    exact ⟨rfl, Iff.rfl⟩

end Query

/-- A server with one table, of numbers. Any condition is that a number is not zero, and any
    order is that of the numbers. -/
def Interpretation.ofNumbers (content : List Nat) : Interpretation Nat where
  tables _ := content
  filter condition rows := if condition = [] then rows else rows.filter (0 < ·)
  results distinct items groups rows :=
    if distinct = true ∨ groups ≠ [] then rows.dedup
    else if items = ["count(*)".toList] then [rows.length]
    else rows
  sort order rows := if order = [] then rows else rows.mergeSort
  cut window rows := ((Window.readClause window).map (Window.limited rows)).getD rows
  number := id
  IsValue item := item ≠ "count(*)".toList
  filter_nil _ := if_pos rfl
  sort_nil _ := if_pos rfl
  length_sort order rows := by
    split
    · rfl
    · exact List.length_mergeSort rows
  cut_nil _ := rfl
  cut_one rows := by
    have hread : Window.readClause " LIMIT 1".toList = some (some 1, 0) :=
      Window.readClause_windowClause ⟨some 1, 0⟩
    rw [hread]
    cases rows <;> simp [Window.limited]
  isValue_field q f := by
    unfold Query.fieldSql
    cases q.joins.isEmpty <;> exact nofun
  isValue_one := by decide
  length_results items rows h := by
    have hitems : items ≠ ["count(*)".toList] := by
      rintro rfl
      exact h _ List.mem_cons_self rfl
    rw [if_neg (by simp), if_neg hitems]
  results_count rows := by
    rw [if_neg (by simp), if_pos rfl]
    rfl

/-- Of three numbers that are not all different there are two. -/
theorem Query.answers_of_visitors :
    (Interpretation.ofNumbers [3, 1, 3]).answer (all visitors).distinctRows.countTree = [2] ∧
      (Interpretation.ofNumbers [3, 1, 3]).answer (all visitors).distinctRows.existenceTree ≠ [] := by
  have h := answers_agree (Interpretation.ofNumbers [3, 1, 3]) (all visitors).distinctRows
  exact ⟨h.2.1.trans (by decide), h.2.2.2 (by decide)⟩

end ColumnStore
