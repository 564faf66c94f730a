import ColumnStore.Proofs.Lexical.Alike
import ColumnStore.Query.Statement

/-!
# Layouts of Statements

The statements of two queries of the same structure are split alike, whatever
texts and names the queries hold. What a user gives as a text or as a name is
one string or one name of the statement and nothing else, so it can neither end
where the user wants it to nor open a comment.

Two queries are alike if they have the same clauses, and expressions of the same
shape in them. Their tables and the columns of these may be different ones; what
counts is how many columns are selected, and how many are named in a clause.

## Main definitions

* `Query.Alike`: Two queries have the same structure.
* `Query.selectStrings`, `Query.sourceStrings`, `Query.deleteStrings`: The texts
  and names of a query in the order of its statements.

## Theorems

* `parallelClause_selectText`, `parallelClause_source`: The parts of the statements.
* `statements_sameLayout`: The statements are split alike.
-/

namespace ColumnStore

open Lexical

namespace Query

/-- Two queries have the same structure. -/
structure Alike (q r : Query) : Prop where
  /-- Equal rows are returned once by both or by neither. -/
  distinct : q.distinct = r.distinct
  /-- Rows are read as merged by both or by neither. -/
  merged : q.merged = r.merged
  /-- They return the same part of the rows. -/
  window : q.window = r.window
  /-- They have conditions of the same shapes. -/
  filters : List.Forall₂ (fun e f => e.shape = f.shape) q.filters r.filters
  /-- They select expressions of the same shapes. -/
  aggregates : List.Forall₂ (fun a b => a.2.shape = b.2.shape) q.aggregates r.aggregates
  /-- They select as many fields. -/
  fields : q.selectedFields.length = r.selectedFields.length
  /-- They group by as many columns. -/
  groups : q.groups.length = r.groups.length
  /-- They sort by as many columns in the same directions. -/
  order : List.Forall₂ (fun s t => s.descending = t.descending) q.order r.order
  /-- They join as many tables in the same ways, on as many columns. -/
  joins : List.Forall₂ (fun i j => i.kind = j.kind ∧ i.shared.length = j.shared.length)
    q.joins r.joins

/-- The expressions of a query have no raw texts, and functions named by identifiers. -/
def isOrdinary (q : Query) : Bool :=
  q.filters.all Expr.isOrdinary && q.aggregates.all fun a => a.2.isOrdinary

/-- The name of a column. -/
def columnString (name : String) : List Piece :=
  [.named name.toList]

/-- The names of a selected field. -/
def fieldStrings (q : Query) (f : Field) : List Piece :=
  if q.joins.isEmpty then columnString f.column
  else .named q.model.table.toList :: (columnString f.column ++ columnString f.column)

/-- The texts and names of what is selected. -/
def selectionStrings (q : Query) : List Piece :=
  if q.isAggregate then q.aggregates.flatMap fun a => a.2.strings ++ columnString a.1
  else q.selectedFields.flatMap q.fieldStrings

/-- The names of a joined table and of the columns it is joined on. -/
def joinStrings (j : Join) : List Piece :=
  .named j.model.table.toList :: j.shared.flatMap columnString

/-- The names of the tables and of the columns they are joined on. -/
def fromStrings (q : Query) : List Piece :=
  .named q.model.table.toList :: q.joins.flatMap joinStrings

/-- The texts and names of the conditions. -/
def whereStrings (q : Query) : List Piece :=
  q.filters.flatMap Expr.strings

/-- The texts and names of a query in the order of the statement that returns its rows. -/
def selectStrings (q : Query) : List Piece :=
  q.selectionStrings ++ q.fromStrings ++ q.whereStrings ++ q.groups.flatMap columnString
    ++ q.order.flatMap fun t => columnString t.column

/-- The texts and names of the rows that are counted. -/
def sourceStrings (q : Query) : List Piece :=
  if q.isPlain then q.fromStrings ++ q.whereStrings else q.selectStrings

/-- The texts and names of the statement that deletes the rows. -/
def deleteStrings (q : Query) : List Piece :=
  .named q.model.table.toList :: q.whereStrings

end Query

/-! ## Conditions -/

namespace Expr

/-- Expressions of one shape are ordinary together. -/
theorem isOrdinary_shape (e : Expr) : e.shape.isOrdinary = e.isOrdinary := by
  have hitems : ∀ {es : List Expr}, (∀ e ∈ es, e.shape.isOrdinary = e.isOrdinary) →
      listIsOrdinary (listShape es) = listIsOrdinary es := by
    intro es ih
    induction es with
    | nil => rfl
    | cons e es hes =>
        rcases List.forall_mem_cons.1 ih with ⟨he, hrest⟩
        rw [listShape, listIsOrdinary, listIsOrdinary, he, hes hrest]
  induction e using Expr.mem_induction with
  | literal v => rfl
  | field name => rfl
  | raw s => rfl
  | list items ih => exact hitems ih
  | call f arguments ih => rw [shape, isOrdinary, isOrdinary, hitems ih]
  | unary op e ih => exact ih
  | range x lo hi hx hlo hhi =>
      simp only [shape, listShape, isOrdinary, listIsOrdinary, hx, hlo, hhi]
  | binary op l r h hl hr => rw [shape, isOrdinary, isOrdinary, hl, hr]

theorem shape_foldl {es fs : List Expr}
    (h : List.Forall₂ (fun e f => e.shape = f.shape) es fs) {a b : Expr}
    (hab : a.shape = b.shape) :
    (es.foldl (binary .and) a).shape = (fs.foldl (binary .and) b).shape := by
  induction h generalizing a b with
  | nil => exact hab
  | cons hef _ ih => exact ih (by rw [shape, shape, hab, hef])

theorem strings_foldl (es : List Expr) (a : Expr) :
    (es.foldl (binary .and) a).strings = a.strings ++ es.flatMap strings := by
  induction es generalizing a with
  | nil => exact (List.append_nil _).symm
  | cons e es ih => rw [List.foldl_cons, ih, strings, List.append_assoc, List.flatMap_cons]

theorem isOrdinary_foldl {es : List Expr} (h : es.all isOrdinary = true) {a : Expr}
    (ha : a.isOrdinary = true) : (es.foldl (binary .and) a).isOrdinary = true := by
  induction es generalizing a with
  | nil => exact ha
  | cons e es ih =>
      rw [List.all_cons, Bool.and_eq_true] at h
      exact ih h.2 (by rw [isOrdinary, ha, h.1]; rfl)

end Expr

namespace Query

theorem all_congr_of_forall₂ {α β : Type} {R : α → β → Prop} {p : α → Bool} {p' : β → Bool}
    {as : List α} {bs : List β} (h : List.Forall₂ R as bs) (hp : ∀ a b, R a b → p a = p' b) :
    as.all p = bs.all p' := by
  induction h with
  | nil => rfl
  | cons hab _ ih => rw [List.all_cons, List.all_cons, hp _ _ hab, ih]

theorem isEmpty_congr {α β : Type} {as : List α} {bs : List β} (h : as.length = bs.length) :
    as.isEmpty = bs.isEmpty := by
  rw [Bool.eq_iff_iff, List.isEmpty_iff_length_eq_zero, List.isEmpty_iff_length_eq_zero, h]

theorem forall₂_of_length_eq {α β : Type} {R : α → β → Prop} {as : List α} {bs : List β}
    (h : as.length = bs.length) (hR : ∀ a b, R a b) : List.Forall₂ R as bs := by
  induction as generalizing bs with
  | nil =>
      rw [List.length_nil] at h
      rw [List.length_eq_zero_iff.1 h.symm]
      exact .nil
  | cons a as ih =>
      cases bs with
      | nil => cases h
      | cons b bs => exact .cons (hR a b) (ih (Nat.succ.inj h))

theorem forall₂_and_of_all {α β : Type} {R : α → β → Prop} {p : α → Bool} {p' : β → Bool}
    {as : List α} {bs : List β} (h : List.Forall₂ R as bs) (ha : as.all p = true)
    (hb : bs.all p' = true) :
    List.Forall₂ (fun a b => R a b ∧ p a = true ∧ p' b = true) as bs := by
  induction h with
  | nil => exact .nil
  | cons hab _ ih =>
      rw [List.all_cons, Bool.and_eq_true] at ha hb
      exact .cons ⟨hab, ha.1, hb.1⟩ (ih ha.2 hb.2)

variable {q r : Query}

/-- Queries of one structure are ordinary together. -/
theorem Alike.isOrdinary (h : Alike q r) : q.isOrdinary = r.isOrdinary := by
  have hordinary : ∀ e f : Expr, e.shape = f.shape → e.isOrdinary = f.isOrdinary := by
    intro e f hef
    rw [← e.isOrdinary_shape, hef, f.isOrdinary_shape]
  rw [Query.isOrdinary, Query.isOrdinary, all_congr_of_forall₂ h.filters hordinary,
    all_congr_of_forall₂ h.aggregates fun a b hab => hordinary a.2 b.2 hab]

theorem Alike.isAggregate (h : Alike q r) : q.isAggregate = r.isAggregate := by
  rw [Query.isAggregate, Query.isAggregate, isEmpty_congr h.aggregates.length_eq]

theorem Alike.isPlain (h : Alike q r) : q.isPlain = r.isPlain := by
  rw [Query.isPlain, Query.isPlain, h.distinct, h.window, isEmpty_congr h.groups,
    isEmpty_congr h.aggregates.length_eq, isEmpty_congr h.joins.length_eq]

/-! ## Clauses -/

theorem parallelClause_column (m n : String) :
    ParallelClause (columnSql m) (columnSql n) (columnString m) (columnString n) :=
  parallelClause_name m.toList n.toList

/-- Columns with commas between them. -/
theorem parallel_columns {α β : Type} (f : α → String) (g : β → String) {as : List α}
    {bs : List β} (h : as.length = bs.length) :
    Parallel (commaSeparated (as.map fun a => columnSql (f a)))
      (commaSeparated (bs.map fun b => columnSql (g b)))
      (as.flatMap fun a => columnString (f a)) (bs.flatMap fun b => columnString (g b)) :=
  Parallel.commaSeparated
    (forall₂_of_length_eq h fun a b => (parallelClause_column (f a) (g b)).parallel)

/-- A selected field is written alike, qualified or not. -/
theorem parallel_field (h : Alike q r) (f g : Field) :
    Parallel (q.fieldSql f) (r.fieldSql g) (q.fieldStrings f) (r.fieldStrings g) := by
  have hcolumn := parallelClause_column f.column g.column
  unfold fieldSql fieldStrings
  rw [isEmpty_congr h.joins.length_eq]
  cases r.joins.isEmpty
  · simp only [Bool.false_eq_true, if_false]
    have htable := parallelClause_name q.model.table.toList r.model.table.toList
    have hnamed := (hcolumn.parallel.append
      (parallelClause_words (w := " AS ".toList) (by decide))).append hcolumn
    rw [List.append_nil, List.append_nil] at hnamed
    exact htable.parallel.append (hnamed.cons (by decide))
  · exact hcolumn.parallel

theorem parallel_alias {a b : String × Expr} (hshape : a.2.shape = b.2.shape)
    (ha : a.2.isOrdinary = true) (hb : b.2.isOrdinary = true) :
    Parallel (aliasSql a) (aliasSql b) (a.2.strings ++ columnString a.1)
      (b.2.strings ++ columnString b.1) := by
  have hnamed := ((parallel_sql hshape ha hb).append
    (parallelClause_words (w := " AS ".toList) (by decide))).append
    (parallelClause_column a.1 b.1)
  rwa [List.append_nil, List.append_nil] at hnamed

theorem parallel_selection (h : Alike q r) (hq : q.isOrdinary = true) :
    Parallel (commaSeparated q.selection) (commaSeparated r.selection) q.selectionStrings
      r.selectionStrings := by
  have hr : r.isOrdinary = true := h.isOrdinary ▸ hq
  rw [isOrdinary, Bool.and_eq_true] at hq hr
  unfold selection selectionStrings
  rw [h.isAggregate]
  cases r.isAggregate
  · exact Parallel.commaSeparated (forall₂_of_length_eq h.fields (parallel_field h))
  · refine Parallel.commaSeparated ((forall₂_and_of_all h.aggregates hq.2 hr.2).imp ?_)
    exact fun a b hab => parallel_alias hab.1 hab.2.1 hab.2.2

theorem parallelClause_join {i j : Join} (hkind : i.kind = j.kind)
    (hshared : i.shared.length = j.shared.length) :
    ParallelClause (joinSql i) (joinSql j) (joinStrings i) (joinStrings j) := by
  have husing := ((parallelClause_name i.model.table.toList j.model.table.toList).append
    (parallelClause_words (w := " USING ".toList) (by decide))).append
    (parallel_columns id id hshared).bracketed
  have hkeyword : (plains j.kind.keyword.toList).all inert = true := by
    cases j.kind <;> decide
  have hne : j.kind.keyword.toList ≠ [] := by
    cases j.kind <;> decide
  unfold joinSql joinStrings
  rw [hkind]
  exact ((husing.parallel.cons (by decide)).parallel.words hkeyword hne).parallel.cons (by decide)

theorem parallelClause_from (h : Alike q r) :
    ParallelClause q.fromClause r.fromClause q.fromStrings r.fromStrings := by
  have hjoins : ParallelClause (q.joins.flatMap joinSql) (r.joins.flatMap joinSql)
      (q.joins.flatMap joinStrings) (r.joins.flatMap joinStrings) := by
    -- The induction is on the two lists of joins, apart from the queries.
    have hrel := h.joins
    generalize q.joins = is at hrel
    generalize r.joins = js at hrel
    induction hrel with
    | nil => exact .nil
    | cons hij _ ih => exact (parallelClause_join hij.1 hij.2).append ih
  have hfinal : ParallelClause (if r.merged then " FINAL".toList else [])
      (if r.merged then " FINAL".toList else []) [] [] := by
    refine parallelClause_words ?_
    cases r.merged <;> decide
  have hfrom : ParallelClause " FROM ".toList " FROM ".toList [] [] :=
    parallelClause_words (by decide)
  unfold fromClause fromStrings
  rw [h.merged]
  exact ((hfrom.append (parallelClause_name q.model.table.toList r.model.table.toList)).append
    hfinal).append hjoins

/-- The conjunctions of alike conditions, if there are any, are written alike. -/
theorem parallel_condition {es fs : List Expr}
    (h : List.Forall₂ (fun e f => e.shape = f.shape) es fs) (hes : es.all Expr.isOrdinary = true)
    (hfs : fs.all Expr.isOrdinary = true) :
    (es = [] ∧ fs = []) ∨ ∃ c d, Expr.conjunction? es = some c ∧ Expr.conjunction? fs = some d ∧
      Parallel c.sql d.sql (es.flatMap Expr.strings) (fs.flatMap Expr.strings) := by
  cases h with
  | nil => exact Or.inl ⟨rfl, rfl⟩
  | @cons e f es fs hef hrest =>
      rw [List.all_cons, Bool.and_eq_true] at hes hfs
      refine Or.inr ⟨_, _, rfl, rfl, ?_⟩
      have hparallel := parallel_sql (Expr.shape_foldl hrest hef)
        (Expr.isOrdinary_foldl hes.2 hes.1) (Expr.isOrdinary_foldl hfs.2 hfs.1)
      rwa [Expr.strings_foldl, Expr.strings_foldl] at hparallel

theorem parallelClause_where (h : Alike q r) (hq : q.isOrdinary = true) :
    ParallelClause q.whereClause r.whereClause q.whereStrings r.whereStrings := by
  have hr : r.isOrdinary = true := h.isOrdinary ▸ hq
  rw [isOrdinary, Bool.and_eq_true] at hq hr
  unfold whereClause condition? whereStrings
  rcases parallel_condition h.filters hq.1 hr.1 with ⟨hnil, hnil'⟩ | ⟨c, d, hc, hd, hparallel⟩
  · rw [hnil, hnil']
    exact .nil
  · rw [hc, hd]
    exact hparallel.words (by decide) (by decide)

theorem parallelClause_group (h : Alike q r) :
    ParallelClause q.groupClause r.groupClause (q.groups.flatMap columnString)
      (r.groups.flatMap columnString) := by
  have hcolumns := parallel_columns id id h.groups
  unfold groupClause
  rw [isEmpty_congr h.groups]
  cases hempty : r.groups.isEmpty
  · exact hcolumns.words (by decide) (by decide)
  · have hnil := List.isEmpty_iff.1 hempty
    have hnil' := List.isEmpty_iff.1 ((isEmpty_congr h.groups).trans hempty)
    rw [hnil, hnil']
    exact .nil

theorem parallelClause_order (h : Alike q r) :
    ParallelClause q.orderClause r.orderClause (q.order.flatMap fun t => columnString t.column)
      (r.order.flatMap fun t => columnString t.column) := by
  have hterm : ∀ s t : SortTerm, s.descending = t.descending →
      Parallel (sortSql s) (sortSql t) (columnString s.column) (columnString t.column) := by
    intro s t hst
    have hdirection : ParallelClause (if t.descending then " DESC".toList else [])
        (if t.descending then " DESC".toList else []) [] [] := by
      refine parallelClause_words ?_
      cases t.descending <;> decide
    have hsort := ((parallelClause_column s.column t.column).append hdirection).parallel
    rw [List.append_nil, List.append_nil] at hsort
    unfold sortSql
    rw [hst]
    exact hsort
  have hterms := Parallel.commaSeparated (h.order.imp hterm)
  have hlength := isEmpty_congr h.order.length_eq
  unfold orderClause
  rw [hlength]
  cases hempty : r.order.isEmpty
  · exact hterms.words (by decide) (by decide)
  · rw [List.isEmpty_iff.1 hempty, List.isEmpty_iff.1 (hlength.trans hempty)]
    exact .nil

/-- The clause of the window holds words and numbers only. -/
theorem parallelClause_window (w : Window) :
    ParallelClause (windowClause w) (windowClause w) [] [] := by
  have hdigits : ∀ n, (plains (Number.digits n)).all inert = true :=
    fun n => all_inert_plains (isFigures_digits n).isConstant.isWordChar
  have hlimit : (plains " LIMIT ".toList).all inert = true := by
    decide
  have hoffset : (plains " OFFSET ".toList).all inert = true := by
    decide
  refine parallelClause_words ?_
  unfold windowClause
  split
  · rfl
  · simp only
    split
    · rw [plains_append, List.all_append, hlimit, hdigits]
      rfl
    · rw [plains_append, plains_append, plains_append, List.all_append, List.all_append,
        List.all_append, hlimit, hdigits, hoffset, hdigits]
      rfl

/-! ## Statements -/

theorem parallelClause_selectText (h : Alike q r) (hq : q.isOrdinary = true) :
    ParallelClause q.selectText r.selectText q.selectStrings r.selectStrings := by
  have hselect : (plains ("SELECT ".toList ++ if r.distinct then "DISTINCT ".toList else [])).all
      inert = true := by
    cases r.distinct <;> decide
  have hne : ("SELECT ".toList ++ if r.distinct then "DISTINCT ".toList else []) ≠ [] :=
    List.append_ne_nil_of_left_ne_nil (by decide) _
  have hselection := (parallel_selection h hq).words hselect hne
  -- Every clause may follow what stands before it.
  have htext := ((((hselection.append (parallelClause_from h)).append
    (parallelClause_where h hq)).append (parallelClause_group h)).append
    (parallelClause_order h)).append (parallelClause_window q.window)
  rw [List.append_nil, List.append_nil] at htext
  unfold selectText selectStrings
  rw [h.distinct, ← h.window]
  exact htext

theorem parallelClause_source (h : Alike q r) (hq : q.isOrdinary = true) :
    ParallelClause q.source r.source q.sourceStrings r.sourceStrings := by
  unfold source sourceStrings
  rw [h.isPlain]
  cases r.isPlain
  · -- The rows of a query that is not plain are those of a statement in brackets.
    exact (parallelClause_selectText h hq).parallel.bracketed.parallel.words (by decide)
      (by decide)
  · exact (parallelClause_from h).append (parallelClause_where h hq)

theorem text_query (text : List Char) : (Statement.query text).text.toList = text :=
  String.toList_ofList

/-- What an accepted deletion says. -/
theorem text_of_delete {s : Statement} (h : q.delete = .ok s) :
    s.text.toList = "ALTER TABLE ".toList ++ q.model.tableSql ++ " DELETE WHERE ".toList
      ++ (q.condition?.map Expr.sql).getD ['1'] := by
  unfold delete at h
  cases hreadonly : q.model.readonly
  · cases hplain : q.isPlain
    · rw [hreadonly, hplain] at h
      cases h
    · rw [hreadonly, hplain] at h
      cases h
      exact String.toList_ofList
  · rw [hreadonly] at h
    cases h

/-- Accepted deletions are written alike. -/
theorem parallel_delete (h : Alike q r) (hq : q.isOrdinary = true) {s t : Statement}
    (hs : q.delete = .ok s) (ht : r.delete = .ok t) :
    Parallel s.text.toList t.text.toList q.deleteStrings r.deleteStrings := by
  have hr : r.isOrdinary = true := h.isOrdinary ▸ hq
  have hcondition : Parallel ((q.condition?.map Expr.sql).getD ['1'])
      ((r.condition?.map Expr.sql).getD ['1']) q.whereStrings r.whereStrings := by
    rw [isOrdinary, Bool.and_eq_true] at hq hr
    unfold condition? whereStrings
    rcases parallel_condition h.filters hq.1 hr.1 with ⟨hnil, hnil'⟩ | ⟨c, d, hc, hd, hparallel⟩
    · rw [hnil, hnil']
      exact (parallelClause_words (w := ['1']) (by decide)).parallel
    · rw [hc, hd]
      exact hparallel
  have htable := (parallelClause_name q.model.table.toList r.model.table.toList).parallel.words
    (w := "ALTER TABLE ".toList) (by decide) (by decide)
  have hdelete := htable.parallel.append
    (hcondition.words (w := " DELETE WHERE ".toList) (by decide) (by decide))
  rw [text_of_delete hs, text_of_delete ht]
  rw [← List.append_assoc, ← List.append_assoc] at hdelete
  exact hdelete

/-- The statements of two queries of the same structure are split alike: into the same
    characters outside quotes, with strings and names in the same places, which are
    exactly the texts and names of the queries in their order, and without a comment.
    Deletions are compared if both are accepted. -/
theorem statements_sameLayout (h : Alike q r) (hq : q.isOrdinary = true) :
    SameLayout q.select.text.toList r.select.text.toList q.selectStrings r.selectStrings ∧
      SameLayout q.count.text.toList r.count.text.toList q.sourceStrings r.sourceStrings ∧
      SameLayout q.existence.text.toList r.existence.text.toList q.sourceStrings
        r.sourceStrings ∧
      ∀ s t, q.delete = .ok s → r.delete = .ok t →
        SameLayout s.text.toList t.text.toList q.deleteStrings r.deleteStrings := by
  have hsource := parallelClause_source h hq
  refine ⟨?_, ?_, ?_, fun s t hs ht => (parallel_delete h hq hs ht).sameLayout⟩
  · rw [select, select, text_query, text_query]
    exact (parallelClause_selectText h hq).parallel.sameLayout
  · -- The star after the bracket is the only one outside of an expression.
    have hcount : ParallelClause "SELECT count(*)".toList "SELECT count(*)".toList [] [] :=
      parallelClause_plains ⟨by simp [Unquoted, plains, isQuote], by decide⟩
        fun p hp => by
          rw [← Option.some.inj hp]
          decide
    rw [count, count, text_query, text_query]
    exact (hcount.append hsource).parallel.sameLayout
  · have hone : ParallelClause "SELECT 1".toList "SELECT 1".toList [] [] :=
      parallelClause_words (by decide)
    have hlimit : ParallelClause " LIMIT 1".toList " LIMIT 1".toList [] [] :=
      parallelClause_words (by decide)
    have hexistence := (hone.append hsource).append hlimit
    rw [List.append_nil, List.append_nil] at hexistence
    rw [existence, existence, text_query, text_query]
    exact hexistence.parallel.sameLayout

/-- A table of people. -/
def people : Model :=
  ⟨"people", [{ name := "name", type := .string }], none, false, rfl⟩

/-- The people of a name. -/
def peopleNamed (name : String) : Query :=
  { model := people, filters := [.binary .eq (.field "name") (.literal (.string name))] }

/-- A name that tries to end its string and to hide the rest of the statement stays a
    name, and is unescaped to what it was. -/
theorem peopleNamed_sameLayout :
    (peopleNamed "Ann").Alike (peopleNamed "' OR 1 = 1 --") ∧
      (peopleNamed "Ann").isOrdinary = true ∧
      SameLayout (peopleNamed "Ann").select.text.toList
        (peopleNamed "' OR 1 = 1 --").select.text.toList
        [.named "name".toList, .named "people".toList, .named "name".toList,
          .quoted "Ann".toList]
        [.named "name".toList, .named "people".toList, .named "name".toList,
          .quoted "' OR 1 = 1 --".toList] := by
  have halike : (peopleNamed "Ann").Alike (peopleNamed "' OR 1 = 1 --") :=
    ⟨rfl, rfl, rfl, .cons rfl .nil, .nil, rfl, rfl, .nil, .nil⟩
  exact ⟨halike, rfl, (statements_sameLayout halike rfl).1⟩

end Query

end ColumnStore
