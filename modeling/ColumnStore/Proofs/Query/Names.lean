import ColumnStore.Proofs.Lexical.Alike
import ColumnStore.Query.Statement

/-!
# Names in a Statement

The statement that returns the rows of a query, cut into parts: what is selected and the
names under which it is, the tables and the columns on which they are joined, the
condition, the keys of groups and those of the order. The pieces of the parts, one after
the other, are what a scanner finds in the text of the statement, so the names that stand
in a part are the names that the text has there.

Raw texts and names of functions are insertions for the scanner. Nothing is known of what
a raw text names.

## Main definitions

* `Lexical.names`: The names among pieces.
* `Query.Part`, `Query.parts`: The parts of the statement, with their pieces.
* `Query.Parts.namesIn`: The names that stand in the parts of one kind.

## Theorems

* `Expr.names_pieces`: The names in the text of an expression are its fields.
* `Query.textOf_parts`, `Query.scan_parts`: The pieces of the parts are the text.
* `Query.namesIn_selection`, `Query.mem_namesIn_label`, `Query.namesIn_condition`,
  `Query.namesIn_groups`, `Query.namesIn_order`: The names in the parts.
-/

namespace ColumnStore

open Lexical

namespace Lexical

/-- The name that a piece is, if it is one. -/
def Piece.name? : Piece → Option String
  | named s => some (String.ofList s)
  | _ => none

/-- The names among pieces, in their order. -/
def names (ps : List Piece) : List String :=
  ps.filterMap Piece.name?

@[simp]
theorem names_append (ps qs : List Piece) : names (ps ++ qs) = names ps ++ names qs :=
  List.filterMap_append

@[simp]
theorem names_plains (s : List Char) : names (plains s) = [] :=
  List.filterMap_eq_nil_iff.2 (List.forall_mem_map.2 fun _ _ => rfl)

@[simp]
theorem names_named (name : String) : names [.named name.toList] = [name] :=
  congrArg (fun s => [s]) String.ofList_toList

/-- A name is one of the contents of a text. -/
theorem names_contents (ps : List Piece) : names (contents ps) = names ps := by
  unfold names contents
  rw [List.filterMap_filter]
  congr 1
  funext p
  cases p <;> rfl

end Lexical

theorem Value.names_strings (v : Value) : names v.strings = [] := by
  induction v using Value.mem_induction with
  | array items ih =>
    rw [strings, listStrings_eq_flatMap, names, List.filterMap_flatMap]
    exact List.flatMap_eq_nil_iff.2 ih
  | tuple items ih =>
    rw [strings, listStrings_eq_flatMap, names, List.filterMap_flatMap]
    exact List.flatMap_eq_nil_iff.2 ih
  | map entries ih =>
    rw [strings, entriesStrings_eq_flatMap, names, List.filterMap_flatMap]
    rw [List.flatMap_assoc]
    refine List.flatMap_eq_nil_iff.2 fun e he => ?_
    simp only [List.flatMap_cons, List.flatMap_nil, List.append_nil]
    exact List.append_eq_nil_iff.2 (ih e he)
  | _ => rfl

theorem Expr.names_strings (e : Expr) : names e.strings = e.fields := by
  have hitems {es : List Expr} (h : ∀ e ∈ es, names e.strings = e.fields) :
      names (listStrings es) = listFields es := by
    induction es with
    | nil => rfl
    | cons e es ih =>
      rw [listStrings, listFields, names_append, h e List.mem_cons_self,
        ih fun e he => h e (List.mem_cons_of_mem _ he)]
  induction e using Expr.mem_induction with
  | literal v => exact v.names_strings
  | field name => exact names_named name
  | raw s => rfl
  | list items ih => exact hitems ih
  | call f arguments ih => exact hitems ih
  | unary op e ih => exact ih
  | range x lo hi hx hlo hhi =>
    simp only [strings, listStrings, fields, listFields, names_append, hx, hlo, hhi]
    rfl
  | binary op l r h hl hr => rw [strings, fields, names_append, hl, hr]

/-- The names in the text of an expression are its fields. -/
theorem Expr.names_pieces (e : Expr) : names e.pieces = e.fields := by
  rw [← names_contents, e.contents_pieces, e.names_strings]

namespace Query

/-- What a part of the statement is for. -/
inductive Part
  /-- Words and signs of the language, and the window. -/
  | frame
  /-- What is selected. -/
  | selection
  /-- The name under which something is selected. -/
  | label
  /-- A table. -/
  | table
  /-- A column on which tables are joined. -/
  | shared
  /-- The condition. -/
  | condition
  /-- A key of groups. -/
  | groups
  /-- A key of the order. -/
  | order
  deriving DecidableEq

/-- Parts with their pieces. -/
abbrev Parts := List (Part × List Piece)

namespace Parts

/-- The pieces of parts. -/
def pieces (parts : Parts) : List Piece :=
  parts.flatMap (·.2)

/-- The names that stand in the parts of one kind. -/
def namesIn (parts : Parts) (p : Part) : List String :=
  parts.flatMap fun part => if part.1 = p then names part.2 else []

/-- Words and signs of the language. -/
def frame (s : List Char) : Parts :=
  [(.frame, plains s)]

/-- A name. -/
def name (p : Part) (s : String) : Parts :=
  [(p, [.named s.toList])]

/-- An expression. -/
def expr (p : Part) (e : Expr) : Parts :=
  [(p, e.pieces)]

/-- Parts with a comma and a blank between neighbours. -/
def separated (items : List Parts) : Parts :=
  (frame ", ".toList).intercalate items

end Parts

open Parts (frame name expr separated)

/-- The parts of a selected expression with its name. -/
def aliasParts (a : String × Expr) : Parts :=
  expr .selection a.2 ++ (frame " AS ".toList ++ name .label a.1)

/-- The parts of a selected field. -/
def fieldParts (q : Query) (f : Field) : Parts :=
  if q.joins.isEmpty then name .selection f.column
  else name .table q.model.table ++ (frame ['.'] ++ (name .selection f.column ++
    (frame " AS ".toList ++ name .label f.column)))

/-- The parts of what is selected. -/
def selectionParts (q : Query) : Parts :=
  separated (if q.isAggregate then q.aggregates.map aliasParts
    else q.selectedFields.map q.fieldParts)

/-- The parts of another table and how it is joined. -/
def joinParts (j : Join) : Parts :=
  frame (' ' :: (j.kind.keyword.toList ++ [' '])) ++ (name .table j.model.table ++
    (frame (" USING ".toList ++ ['(']) ++ (separated (j.shared.map (name .shared)) ++ frame [')'])))

/-- The parts of the tables. -/
def fromParts (q : Query) : Parts :=
  frame " FROM ".toList ++ name .table q.model.table
    ++ frame (if q.merged then " FINAL".toList else []) ++ q.joins.flatMap joinParts

/-- The parts of the condition. -/
def whereParts (q : Query) : Parts :=
  match q.condition? with
  | some c => frame " WHERE ".toList ++ expr .condition c
  | none => []

/-- The parts of the groups. -/
def groupParts (q : Query) : Parts :=
  if q.groups.isEmpty then []
  else frame " GROUP BY ".toList ++ separated (q.groups.map (name .groups))

/-- The parts of a sort key. -/
def sortParts (t : SortTerm) : Parts :=
  name .order t.column ++ frame (if t.descending then " DESC".toList else [])

/-- The parts of the sort keys. -/
def orderParts (q : Query) : Parts :=
  if q.order.isEmpty then []
  else frame " ORDER BY ".toList ++ separated (q.order.map sortParts)

/-- The parts of the statement that returns the rows. -/
def parts (q : Query) : Parts :=
  frame ("SELECT ".toList ++ (if q.distinct then "DISTINCT ".toList else []))
    ++ q.selectionParts ++ q.fromParts ++ q.whereParts ++ q.groupParts ++ q.orderParts
    ++ frame (windowClause q.window)

/-! ## The text -/

namespace Parts

@[simp]
theorem pieces_append (s t : Parts) : pieces (s ++ t) = pieces s ++ pieces t :=
  List.flatMap_append

@[simp]
theorem pieces_frame (s : List Char) : pieces (frame s) = plains s :=
  List.flatMap_singleton _ _

@[simp]
theorem pieces_expr (p : Part) (e : Expr) : pieces (expr p e) = e.pieces :=
  List.append_nil _

@[simp]
theorem pieces_name (p : Part) (s : String) : pieces (name p s) = [.named s.toList] :=
  rfl

theorem separated_cons_cons (s t : Parts) (r : List Parts) :
    separated (s :: t :: r) = s ++ (frame ", ".toList ++ separated (t :: r)) := by
  simp [separated, List.intercalate]

theorem separated_singleton (s : Parts) : separated [s] = s := by
  simp [separated, List.intercalate]

/-- The text of separated parts. -/
@[simp]
theorem textOf_separated (items : List Parts) : textOf (separated items).pieces =
    commaSeparated (items.map fun part => textOf part.pieces) := by
  match items with
  | [] => rfl
  | [s] => simp [separated_singleton, commaSeparated, List.intercalate]
  | s :: t :: r =>
    rw [separated_cons_cons, pieces_append, pieces_append, pieces_frame, textOf_append,
      textOf_append, textOf_plains, textOf_separated (t :: r), List.map_cons, List.map_cons,
      List.map_cons, commaSeparated_cons_cons]
    rfl

@[simp]
theorem namesIn_append (s t : Parts) (p : Part) :
    namesIn (s ++ t) p = namesIn s p ++ namesIn t p :=
  List.flatMap_append

@[simp]
theorem namesIn_frame (s : List Char) (p : Part) : namesIn (frame s) p = [] := by
  simp [namesIn, frame]

@[simp]
theorem namesIn_name (p p' : Part) (s : String) :
    namesIn (name p s) p' = if p = p' then [s] else [] := by
  simp [namesIn, name]

@[simp]
theorem namesIn_expr (p p' : Part) (e : Expr) :
    namesIn (expr p e) p' = if p = p' then e.fields else [] := by
  simp [namesIn, expr, e.names_pieces]

@[simp]
theorem namesIn_separated (items : List Parts) (p : Part) :
    namesIn (separated items) p = items.flatMap fun part => namesIn part p := by
  match items with
  | [] => rfl
  | [s] => rw [separated_singleton, List.flatMap_singleton]
  | s :: t :: r =>
    rw [separated_cons_cons, namesIn_append, namesIn_append, namesIn_frame, List.nil_append,
      namesIn_separated (t :: r), List.flatMap_cons, List.flatMap_cons, List.flatMap_cons]

end Parts

theorem textOf_selectionParts (q : Query) :
    textOf q.selectionParts.pieces = commaSeparated q.selection := by
  unfold selectionParts selection
  rw [Parts.textOf_separated]
  cases q.isAggregate with
  | true =>
    simp only [if_true, List.map_map]
    refine congrArg commaSeparated (List.map_congr_left fun a _ => ?_)
    simp [aliasParts, aliasSql, columnSql, Piece.text, a.2.textOf_pieces]
  | false =>
    simp only [Bool.false_eq_true, if_false, List.map_map]
    refine congrArg commaSeparated (List.map_congr_left fun f _ => ?_)
    unfold Function.comp fieldParts fieldSql
    cases q.joins.isEmpty with
    | true => simp [columnSql, Piece.text]
    | false => simp [columnSql, Piece.text, Model.tableSql]

theorem textOf_columns (p : Part) (columns : List String) :
    textOf (separated (columns.map (name p))).pieces = commaSeparated (columns.map columnSql) := by
  rw [Parts.textOf_separated, List.map_map]
  refine congrArg commaSeparated (List.map_congr_left fun c _ => ?_)
  exact List.append_nil _

theorem textOf_joinParts (j : Join) : textOf (joinParts j).pieces = joinSql j := by
  simp only [joinParts, joinSql, bracketed, Model.tableSql, Parts.pieces_append, textOf_append,
    textOf_columns, Parts.pieces_frame, Parts.pieces_name, textOf_plains, textOf_cons,
    Piece.text, List.cons_append, List.append_assoc, List.nil_append]

theorem textOf_fromParts (q : Query) : textOf q.fromParts.pieces = q.fromClause := by
  have hjoins : textOf (Parts.pieces (q.joins.flatMap joinParts)) = q.joins.flatMap joinSql := by
    induction q.joins with
    | nil => rfl
    | cons j js ih =>
      rw [List.flatMap_cons, List.flatMap_cons, Parts.pieces_append, textOf_append,
        textOf_joinParts, ih]
  unfold fromParts fromClause
  simp only [hjoins, Model.tableSql, Parts.pieces_append, textOf_append, Parts.pieces_frame,
    Parts.pieces_name, textOf_plains, textOf_cons, textOf_nil, Piece.text, List.append_nil]

theorem textOf_whereParts (q : Query) : textOf q.whereParts.pieces = q.whereClause := by
  unfold whereParts whereClause
  cases q.condition? with
  | none => rfl
  | some c => simp [c.textOf_pieces]

theorem textOf_groupParts (q : Query) : textOf q.groupParts.pieces = q.groupClause := by
  unfold groupParts groupClause
  cases q.groups.isEmpty with
  | true => rfl
  | false =>
    simp only [Bool.false_eq_true, if_false, Parts.pieces_append, textOf_append, textOf_columns,
      Parts.pieces_frame, textOf_plains]

theorem textOf_orderParts (q : Query) : textOf q.orderParts.pieces = q.orderClause := by
  have hterm (t : SortTerm) : textOf (sortParts t).pieces = sortSql t := by
    simp only [sortParts, sortSql, columnSql, Parts.pieces_append, textOf_append,
      Parts.pieces_frame, Parts.pieces_name, textOf_plains, textOf_cons, textOf_nil, Piece.text,
      List.append_nil]
  unfold orderParts orderClause
  cases q.order.isEmpty with
  | true => rfl
  | false => simp [hterm, Function.comp_def]

/-- The pieces of the parts are the text. -/
theorem textOf_parts (q : Query) : textOf q.parts.pieces = q.selectText := by
  unfold parts selectText
  simp only [Parts.pieces_append, Parts.pieces_frame, textOf_append, textOf_plains,
    textOf_selectionParts, textOf_fromParts, textOf_whereParts, textOf_groupParts,
    textOf_orderParts]

/-! ## The scanner -/

/-- The text of the statement, with the raw texts and the names of functions in it marked as
    such. -/
def selectSymbols (q : Query) : List Symbol :=
  q.parts.pieces.flatMap Piece.symbols

/-- Without its marks it is the text. -/
theorem text_selectSymbols (q : Query) : q.selectSymbols.flatMap Symbol.text = q.selectText := by
  rw [selectSymbols, text_symbols]
  exact q.textOf_parts

theorem unquoted_frame {s : List Char} (h : s.all (fun c => !isQuote c) = true) :
    Unquoted (frame s).pieces := by
  rw [Parts.pieces_frame]
  intro c hc
  rcases List.mem_map.1 hc with ⟨d, hd, hdc⟩
  rw [← Piece.plain.inj hdc]
  simpa using List.all_eq_true.1 h d hd

theorem unquoted_name (p : Part) (s : String) : Unquoted (name p s).pieces :=
  (clean_single rfl).unquoted

theorem unquoted_pieces_append {s t : Parts} (hs : Unquoted s.pieces) (ht : Unquoted t.pieces) :
    Unquoted (s ++ t).pieces := by
  rw [Parts.pieces_append]
  exact unquoted_append hs ht

theorem unquoted_separated {items : List Parts} (h : ∀ s ∈ items, Unquoted s.pieces) :
    Unquoted (separated items).pieces := by
  match items with
  | [] => exact clean_nil.unquoted
  | [s] =>
    rw [Parts.separated_singleton]
    exact h s (by simp)
  | s :: t :: r =>
    rw [Parts.separated_cons_cons]
    exact unquoted_pieces_append (h s (by simp)) (unquoted_pieces_append
      (unquoted_frame (by decide))
      (unquoted_separated fun s' hs' => h s' (List.mem_cons_of_mem s hs')))

theorem unquoted_expr (p : Part) (e : Expr) : Unquoted (expr p e).pieces := by
  rw [Parts.pieces_expr]
  exact e.clean_pieces.unquoted

theorem unquoted_selectionParts (q : Query) : Unquoted q.selectionParts.pieces := by
  refine unquoted_separated ?_
  cases q.isAggregate with
  | true =>
    refine List.forall_mem_map.2 fun a _ => ?_
    exact unquoted_pieces_append (unquoted_expr _ _)
      (unquoted_pieces_append (unquoted_frame (by decide)) (unquoted_name _ _))
  | false =>
    refine List.forall_mem_map.2 fun f _ => ?_
    unfold fieldParts
    cases q.joins.isEmpty with
    | true => exact unquoted_name _ _
    | false =>
      exact unquoted_pieces_append (unquoted_name _ _) (unquoted_pieces_append
        (unquoted_frame (by decide)) (unquoted_pieces_append (unquoted_name _ _)
          (unquoted_pieces_append (unquoted_frame (by decide)) (unquoted_name _ _))))

theorem unquoted_columns (p : Part) (columns : List String) :
    Unquoted (separated (columns.map (name p))).pieces :=
  unquoted_separated (List.forall_mem_map.2 fun c _ => unquoted_name p c)

theorem unquoted_fromParts (q : Query) : Unquoted q.fromParts.pieces := by
  have hjoin (j : Join) : Unquoted (joinParts j).pieces := by
    refine unquoted_pieces_append (unquoted_frame ?_) (unquoted_pieces_append (unquoted_name _ _)
      (unquoted_pieces_append (unquoted_frame (by decide)) (unquoted_pieces_append
        (unquoted_columns _ _) (unquoted_frame (by decide)))))
    cases j.kind <;> decide
  have hjoins : Unquoted (Parts.pieces (q.joins.flatMap joinParts)) := by
    induction q.joins with
    | nil => exact clean_nil.unquoted
    | cons j js ih =>
      rw [List.flatMap_cons]
      exact unquoted_pieces_append (hjoin j) ih
  refine unquoted_pieces_append (unquoted_pieces_append (unquoted_pieces_append
    (unquoted_frame (by decide)) (unquoted_name _ _)) (unquoted_frame ?_)) hjoins
  cases q.merged <;> decide

theorem unquoted_windowClause (w : Window) :
    (windowClause w).all (fun c => !isQuote c) = true := by
  have hdigits (n : Nat) : (Number.digits n).all (fun c => !isQuote c) = true := by
    refine List.all_eq_true.2 fun c hc => ?_
    have hword := isWordChar_of_isFigure (isFigure_of_mem_digits hc)
    rw [not_isQuote_of_inert (inert_of_isWordChar hword) c rfl]
    rfl
  have hlimit : " LIMIT ".toList.all (fun c => !isQuote c) = true := by decide
  have hoffset : " OFFSET ".toList.all (fun c => !isQuote c) = true := by decide
  unfold windowClause
  by_cases hwhole : w.isWhole = true
  · rw [if_pos hwhole]
    rfl
  · rw [if_neg hwhole]
    by_cases hzero : w.offset = 0
    · rw [if_pos hzero, List.all_append, hlimit, hdigits]
      rfl
    · rw [if_neg hzero, List.all_append, List.all_append, List.all_append, hlimit, hdigits,
        hoffset, hdigits]
      rfl

theorem unquoted_parts (q : Query) : Unquoted q.parts.pieces := by
  have hwhere : Unquoted q.whereParts.pieces := by
    unfold whereParts
    cases q.condition? with
    | none => exact clean_nil.unquoted
    | some c => exact unquoted_pieces_append (unquoted_frame (by decide)) (unquoted_expr _ c)
  have hgroup : Unquoted q.groupParts.pieces := by
    unfold groupParts
    cases q.groups.isEmpty with
    | true => exact clean_nil.unquoted
    | false => exact unquoted_pieces_append (unquoted_frame (by decide)) (unquoted_columns _ _)
  have horder : Unquoted q.orderParts.pieces := by
    unfold orderParts
    cases q.order.isEmpty with
    | true => exact clean_nil.unquoted
    | false =>
      refine unquoted_pieces_append (unquoted_frame (by decide)) (unquoted_separated ?_)
      refine List.forall_mem_map.2 fun t _ => ?_
      refine unquoted_pieces_append (unquoted_name _ _) (unquoted_frame ?_)
      cases t.descending <;> decide
  refine unquoted_pieces_append (unquoted_pieces_append (unquoted_pieces_append
    (unquoted_pieces_append (unquoted_pieces_append (unquoted_pieces_append (unquoted_frame ?_)
      q.unquoted_selectionParts) q.unquoted_fromParts) hwhere) hgroup) horder)
    (unquoted_frame (unquoted_windowClause q.window))
  cases q.distinct <;> decide

/-- The pieces of the parts are what a scanner finds in the text. -/
theorem scan_parts (q : Query) : scan q.selectSymbols = some q.parts.pieces :=
  scan_symbols q.unquoted_parts

/-! ## The names -/

variable (q : Query) (p : Part)

theorem namesIn_columns (p' : Part) (columns : List String) :
    (separated (columns.map (name p'))).namesIn p = if p' = p then columns else [] := by
  rw [Parts.namesIn_separated, List.flatMap_map]
  by_cases h : p' = p
  · simp [h]
  · simp [h]

theorem namesIn_selectionParts : q.selectionParts.namesIn p =
    if q.isAggregate then q.aggregates.flatMap fun a =>
      (if .selection = p then a.2.fields else []) ++ if .label = p then [a.1] else []
    else q.selectedFields.flatMap fun f => (q.fieldParts f).namesIn p := by
  unfold selectionParts
  rw [Parts.namesIn_separated]
  cases q.isAggregate with
  | true => simp [List.flatMap_map, aliasParts]
  | false => simp [List.flatMap_map]

theorem namesIn_fromParts : q.fromParts.namesIn p =
    (if .table = p then [q.model.table] else []) ++ q.joins.flatMap fun j =>
      (if .table = p then [j.model.table] else []) ++ if .shared = p then j.shared else [] := by
  have hjoins : Parts.namesIn (q.joins.flatMap joinParts) p = q.joins.flatMap fun j =>
      (if .table = p then [j.model.table] else []) ++ if .shared = p then j.shared else [] := by
    induction q.joins with
    | nil => rfl
    | cons j js ih =>
      rw [List.flatMap_cons, List.flatMap_cons, Parts.namesIn_append, ih, joinParts]
      simp only [Parts.namesIn_append, Parts.namesIn_frame, Parts.namesIn_name, namesIn_columns,
        List.nil_append, List.append_nil]
  simp only [fromParts, hjoins, Parts.namesIn_append, Parts.namesIn_frame, Parts.namesIn_name,
    List.nil_append, List.append_nil]

theorem fields_foldl (es : List Expr) (e : Expr) :
    (es.foldl (.binary .and) e).fields = e.fields ++ es.flatMap Expr.fields := by
  induction es generalizing e with
  | nil => exact (List.append_nil _).symm
  | cons e' es ih =>
    rw [List.foldl_cons, ih, Expr.fields, List.append_assoc, List.flatMap_cons]

theorem namesIn_whereParts : q.whereParts.namesIn p =
    if .condition = p then q.filters.flatMap Expr.fields else [] := by
  unfold whereParts condition?
  cases q.filters with
  | nil => simp [Expr.conjunction?, Parts.namesIn]
  | cons e es => simp [Expr.conjunction?, fields_foldl]

theorem namesIn_groupParts : q.groupParts.namesIn p = if .groups = p then q.groups else [] := by
  unfold groupParts
  cases q.groups with
  | nil => simp [Parts.namesIn]
  | cons c cs =>
    rw [List.isEmpty_cons, if_neg Bool.false_ne_true, Parts.namesIn_append, namesIn_columns]
    simp

theorem namesIn_orderParts : q.orderParts.namesIn p =
    if .order = p then q.order.map SortTerm.column else [] := by
  unfold orderParts
  cases q.order with
  | nil => simp [Parts.namesIn]
  | cons t ts =>
    rw [List.isEmpty_cons, if_neg Bool.false_ne_true, Parts.namesIn_append,
      Parts.namesIn_separated, Parts.namesIn_frame, List.nil_append, List.flatMap_map]
    have hterm (t : SortTerm) :
        (sortParts t).namesIn p = if .order = p then [t.column] else [] := by
      simp only [sortParts, Parts.namesIn_append, Parts.namesIn_frame, Parts.namesIn_name,
        List.append_nil]
    simp only [hterm]
    by_cases h : Part.order = p
    · simp [h, List.map_eq_flatMap]
    · simp [h]

/-- The names in the statement, clause by clause. -/
theorem namesIn_parts : q.parts.namesIn p = q.selectionParts.namesIn p ++ q.fromParts.namesIn p
    ++ q.whereParts.namesIn p ++ q.groupParts.namesIn p ++ q.orderParts.namesIn p := by
  unfold parts
  simp only [Parts.namesIn_append, Parts.namesIn_frame, List.nil_append, List.append_nil]

theorem namesIn_fieldParts (f : Field) : (q.fieldParts f).namesIn p =
    (if q.joins.isEmpty = false ∧ .table = p then [q.model.table] else []) ++
      ((if .selection = p then [f.column] else []) ++
        if q.joins.isEmpty = false ∧ .label = p then [f.column] else []) := by
  unfold fieldParts
  cases q.joins.isEmpty with
  | true => simp
  | false => simp

/-- The clauses other than the selection and the tables have names of one kind each. -/
theorem namesIn_clauses (h : p ≠ .selection ∧ p ≠ .label ∧ p ≠ .table ∧ p ≠ .shared) :
    q.parts.namesIn p = (if .condition = p then q.filters.flatMap Expr.fields else []) ++
      ((if .groups = p then q.groups else []) ++
        if .order = p then q.order.map SortTerm.column else []) := by
  rcases h with ⟨hselection, hlabel, htable, hshared⟩
  have hnone {α : Type} (xs : List α) : xs.flatMap (fun _ => ([] : List String)) = [] := by simp
  rw [namesIn_parts, namesIn_selectionParts, namesIn_fromParts, namesIn_whereParts,
    namesIn_groupParts, namesIn_orderParts]
  simp only [namesIn_fieldParts, hselection.symm, hlabel.symm, htable.symm, hshared.symm,
    and_false, if_false, List.append_nil, List.nil_append, List.append_assoc, hnone, ite_self]

/-- What is selected are the fields of the expressions, or the columns of the fields. -/
theorem namesIn_selection : q.parts.namesIn .selection =
    if q.isAggregate then q.aggregates.flatMap fun a => a.2.fields
    else q.selectedFields.map Field.column := by
  rw [namesIn_parts, namesIn_selectionParts, namesIn_fromParts, namesIn_whereParts,
    namesIn_groupParts, namesIn_orderParts]
  simp [namesIn_fieldParts, List.map_eq_flatMap]

/-- The names of what is selected are those of the expressions. Fields have names if there
    are other tables, which are their columns. -/
theorem mem_namesIn_label {q : Query} {name : String} : name ∈ q.parts.namesIn .label ↔
    if q.isAggregate then ∃ a ∈ q.aggregates, a.1 = name
    else q.joins.isEmpty = false ∧ ∃ f ∈ q.selectedFields, f.column = name := by
  rw [namesIn_parts, namesIn_selectionParts, namesIn_fromParts, namesIn_whereParts,
    namesIn_groupParts, namesIn_orderParts]
  cases q.isAggregate with
  | true => simp [eq_comm]
  | false =>
    cases hjoins : q.joins.isEmpty with
    | true => simp [namesIn_fieldParts, hjoins]
    | false => simp [namesIn_fieldParts, hjoins, eq_comm]

/-- The tables are those of the models. Where there are several, fields are qualified by the
    first one. -/
theorem mem_namesIn_table {q : Query} {name : String} (h : name ∈ q.parts.namesIn .table) :
    ∃ m ∈ q.model :: q.joins.map Join.model, m.table = name := by
  have hselection : name ∈ q.selectionParts.namesIn .table → name = q.model.table := by
    rw [namesIn_selectionParts]
    cases q.isAggregate with
    | true => simp
    | false => simp [namesIn_fieldParts]
  rw [namesIn_parts, namesIn_whereParts, namesIn_groupParts, namesIn_orderParts,
    namesIn_fromParts] at h
  simp only [↓reduceIte, reduceCtorEq, List.append_nil, List.cons_append, List.nil_append,
    List.mem_append, List.mem_cons, List.mem_flatMap, List.not_mem_nil, or_false] at h
  rcases h with h | rfl | ⟨j, hj, rfl⟩
  · exact ⟨q.model, List.mem_cons_self, (hselection h).symm⟩
  · exact ⟨q.model, List.mem_cons_self, rfl⟩
  · exact ⟨j.model, List.mem_cons_of_mem _ (List.mem_map_of_mem hj), rfl⟩

theorem namesIn_shared : q.parts.namesIn .shared = q.joins.flatMap Join.shared := by
  have hnone {α : Type} (xs : List α) : xs.flatMap (fun _ => ([] : List String)) = [] := by simp
  rw [namesIn_parts, namesIn_selectionParts, namesIn_fromParts, namesIn_whereParts,
    namesIn_groupParts, namesIn_orderParts]
  simp [namesIn_fieldParts, hnone]

theorem namesIn_condition : q.parts.namesIn .condition = q.filters.flatMap Expr.fields := by
  rw [namesIn_clauses q .condition (by decide)]
  simp

theorem namesIn_groups : q.parts.namesIn .groups = q.groups := by
  rw [namesIn_clauses q .groups (by decide)]
  simp

theorem namesIn_order : q.parts.namesIn .order = q.order.map SortTerm.column := by
  rw [namesIn_clauses q .order (by decide)]
  simp

end Query

end ColumnStore
