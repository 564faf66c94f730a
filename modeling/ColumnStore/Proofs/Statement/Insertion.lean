import ColumnStore.Proofs.ColumnType.Lasting
import ColumnStore.Proofs.Except.Basic
import ColumnStore.Statement.Insert

/-!
# Reading Insertions

The statement that inserts records is read as its receiver reads it: a table, the names
of columns, and rows of literals, of which each is read with the type of the column that
is named at its place. What is read are the records that the statement was put together
for, one row for each and in their order.

The names and the literals come from two passes over the fields of a model, and the
literals of each record from a pass over the fields of its own model. That the passes
leave out the same fields is what keeps every value in its column.

## Main definitions

* `Insertion`: What an insertion says.
* `Insertion.read?`: What a text says, if it is an insertion.
* `Insertion.values?`: The values that it inserts into the table of a model.
* `Record.stored`: What a table keeps of a record.

## Theorems

* `Insertion.read?_insertionText`: What the statement for some records says.
* `Insertion.exists_values?`: What it inserts is what the table keeps of them.
-/

namespace ColumnStore

open Text (Reader)

namespace Text

/-- Reads the inside of a name and the backtick that closes it. -/
def readNameBody : List Char → Option (List Char × List Char)
  | [] => none
  | '\x60' :: r => some ([], r)
  | '\\' :: c :: r => (readNameBody r).map fun p => (unescapeChar c :: p.1, p.2)
  | ['\\'] => none
  | c :: r => (readNameBody r).map fun p => (c :: p.1, p.2)

/-- Reads a name between backticks. -/
def readName : Reader String
  | '\x60' :: r => (readNameBody r).map fun p => (String.ofList p.1, p.2)
  | _ => none

theorem readNameBody_escapeNameChar (c : Char) (r : List Char) :
    readNameBody (escapeNameChar c ++ r) = (readNameBody r).map fun p => (c :: p.1, p.2) := by
  unfold escapeNameChar
  split
  · rfl
  · rfl
  · next hbacktick hbackslash =>
    rw [List.singleton_append, readNameBody.eq_def]
    split
    · next he => cases he
    · next he => exact absurd (List.cons.inj he).1 hbacktick
    · next he => exact absurd (List.cons.inj he).1 hbackslash
    · next he => exact absurd (List.cons.inj he).1 hbackslash
    · next he => rw [(List.cons.inj he).1, (List.cons.inj he).2]

/-- A name is read back, whatever follows it. -/
theorem readName_quoteName (name : String) (r : List Char) :
    readName (quoteName name.toList ++ r) = some (name, r) := by
  have hbody (s : List Char) :
      readNameBody (s.flatMap escapeNameChar ++ '\x60' :: r) = some (s, r) := by
    induction s with
    | nil => rfl
    | cons c s ih =>
      rw [List.flatMap_cons, List.append_assoc, readNameBody_escapeNameChar, ih, Option.map_some]
  have hquote : quoteName name.toList ++ r =
      '\x60' :: (name.toList.flatMap escapeNameChar ++ '\x60' :: r) := by
    simp [quoteName]
  rw [hquote, readName, hbody, Option.map_some, String.ofList_toList]

end Text

/-- What an insertion says: a table, the names of columns, and rows of literals. -/
structure Insertion where
  /-- The table. -/
  table : String
  /-- The columns that are named. -/
  columns : List String
  /-- A literal for each column in each row. -/
  rows : List (List Literal)

namespace Insertion

/-- The cells of a row. -/
def cells? : Literal → Option (List Literal)
  | .list cells => some cells
  | _ => none

/-- The rows of a text that follows the names, which is a list of literals but for the
    brackets around it. -/
def rows? (s : List Char) : Option (List (List Literal)) :=
  match Literal.read ('[' :: (s ++ [']'])) with
  | .ok (.list rows) => rows.mapM cells?
  | _ => none

/-- What a text says, if it is an insertion. -/
def read? (s : List Char) : Option Insertion := do
  let (_, r) ← Reader.exactly "INSERT INTO ".toList s
  let (table, r) ← Text.readName r
  let (_, r) ← Reader.exactly " (".toList r
  let (columns, r) ← Reader.separated1 (Reader.exactly ", ".toList) Text.readName r
  let (_, r) ← Reader.exactly ") VALUES ".toList r
  let rows ← rows? r
  pure ⟨table, columns, rows⟩

/-- A literal read with the type of a column of a model. -/
def cellValue? (m : Model) (column : String) (l : Literal) : Option (String × Value) := do
  let i ← m.columnIndex? column
  let v ← ((m.fields.get i).type.decodeLiteral l).toOption
  pure (column, v)

/-- The values of a row with their columns, each read with the type of the column that is
    named at its place. -/
def rowValues? (m : Model) (columns : List String) (row : List Literal) :
    Option (List (String × Value)) :=
  if columns.length = row.length then
    (columns.zip row).mapM fun p => cellValue? m p.1 p.2
  else none

/-- The rows of values that are inserted into the table of a model. -/
def values? (m : Model) (i : Insertion) : Option (List (List (String × Value))) :=
  if i.table = m.table then i.rows.mapM (rowValues? m i.columns) else none

end Insertion

/-- What the type of a field makes of a value that it accepts. -/
def Field.kept (f : Field) (v : Value) : Value :=
  match f.type.accept v with
  | .ok w => w
  | .error _ => v

namespace Record

/-- The fields that are inserted, with their values. -/
def written (r : Record) : List (Field × Value) :=
  r.pairs.filter fun p => !p.1.readonly

/-- What a table keeps of a record: in the column of each field that is inserted, what is
    left there of what its type makes of the value. -/
def stored (r : Record) : List (String × Value) :=
  r.written.map fun p => (p.1.column, p.1.type.norm (p.1.kept p.2))

/-- A row holds what a table keeps of a record, each value in its column. -/
def IsStoredAs (r : Record) (row : List (String × Value)) : Prop :=
  List.Forall₂ (fun u w => u.1 = w.1 ∧ u.2.same w.2 = true) row r.stored

/-- The row of a record. -/
def rowText (r : Record) : List Char :=
  bracketed (commaSeparated (r.written.map fun p => p.1.type.sqlOf (p.1.kept p.2)))

/-- The literals of a record. -/
def cells (r : Record) : List Literal :=
  r.written.map fun p => p.1.type.literalOf (p.1.kept p.2)

/-- Every field that is inserted takes its value, and what it makes of it lasts. -/
def Accepted (r : Record) : Prop :=
  ∀ p ∈ r.written, ∃ w, p.1.type.accept p.2 = .ok w ∧ w.isLasting = true

instance (r : Record) : Decidable r.Accepted :=
  decidable_of_iff
    (∀ p ∈ r.written, (p.1.type.accept p.2).toOption.any Value.isLasting = true) (by
      refine forall₂_congr fun p _ => ?_
      cases p.1.type.accept p.2 with
      | error e => simp [Except.toOption]
      | ok w => simp [Except.toOption])

theorem notates_rowText (r : Record) : Literal.Notates r.rowText (.list r.cells) :=
  Literal.notates_brackets fun p _ => ColumnType.notates_sqlOf p.1.type (p.1.kept p.2)

end Record

/-! ## What a statement says -/

/-- The text of the statement that inserts records whose values are accepted. -/
def Model.insertionText (m : Model) (records : List Record) : List Char :=
  "INSERT INTO ".toList ++ m.tableSql ++ ' ' ::
    (bracketed (commaSeparated (m.insertable.map fun f => Text.quoteName f.column.toList))
      ++ " VALUES ".toList ++ commaSeparated (records.map Record.rowText))

/-- The row of a record of a model is put together from what its fields make of its
    values. -/
theorem Model.rowSql_of_accepted {m : Model} {r : Record} (hsame : r.model.same m = true)
    (haccept : r.Accepted) : m.rowSql r = .ok r.rowText := by
  have hencode : ∀ p ∈ r.written, p.1.encode p.2 = .ok (p.1.type.sqlOf (p.1.kept p.2)) := by
    intro p hp
    rcases haccept p hp with ⟨w, hw, -⟩
    rw [Field.encode, ColumnType.encode, Field.kept, hw]
    rfl
  have hliterals : r.literals = .ok (r.written.map fun p => p.1.type.sqlOf (p.1.kept p.2)) :=
    mapM_eq_pure hencode
  rw [Model.rowSql, hsame, hliterals]
  rfl

theorem Insertion.rows?_rowTexts (records : List Record) :
    rows? (commaSeparated (records.map Record.rowText)) = some (records.map Record.cells) := by
  have hnotates : Literal.Notates (arrayLiteral (records.map Record.rowText))
      (.list (records.map fun r => .list r.cells)) :=
    Literal.notates_array fun r _ => r.notates_rowText
  have hread := Literal.read_of_notates hnotates
  rw [arrayLiteral] at hread
  unfold rows?
  rw [hread]
  dsimp only
  rw [List.mapM_map]
  exact mapM_eq_pure fun r _ => rfl

/-- The statement for some records names the columns of the fields that are inserted, and
    has a row of literals for each record. -/
theorem Insertion.read?_insertionText {m : Model} (hne : m.insertable ≠ [])
    (records : List Record) :
    read? (m.insertionText records) =
      some ⟨m.table, m.insertable.map Field.column, records.map Record.cells⟩ := by
  have hcolumns (r : List Char) : Reader.separated1 (Reader.exactly ", ".toList) Text.readName
      (commaSeparated (m.insertable.map fun f => Text.quoteName f.column.toList) ++ ')' :: r) =
        some (m.insertable.map Field.column, ')' :: r) := by
    refine Reader.separated1_commaSeparated hne (fun _ => rfl) ?_ r
    intro f hf d r hd
    have hname := Text.readName_quoteName f.column (d :: r)
    exact ⟨hname, _, rfl, hname⟩
  have htext : m.insertionText records = "INSERT INTO ".toList ++ (Text.quoteName m.table.toList ++
      ' ' :: '(' :: (commaSeparated (m.insertable.map fun f => Text.quoteName f.column.toList) ++
        ')' :: (" VALUES ".toList ++ commaSeparated (records.map Record.rowText)))) := by
    unfold Model.insertionText Model.tableSql bracketed
    generalize "INSERT INTO ".toList = opening
    generalize " VALUES ".toList = values
    simp only [List.append_assoc, List.cons_append, List.nil_append]
  have hopening (r : List Char) : Reader.exactly " (".toList (' ' :: '(' :: r) = some ((), r) := rfl
  -- The bracket that closes the names belongs to the word after them.
  have hvalues (r : List Char) :
      Reader.exactly ") VALUES ".toList (')' :: (" VALUES ".toList ++ r)) = some ((), r) := by
    have hcons : ") VALUES ".toList = ')' :: " VALUES ".toList := by decide
    rw [hcons, ← List.cons_append, Reader.exactly_append]
  rw [htext, read?, Reader.exactly_append]
  simp only [Option.bind_eq_bind, Option.bind_some, Text.readName_quoteName, hopening, hcolumns,
    hvalues, rows?_rowTexts, Option.pure_def]

/-! ## What a table keeps -/

/-- Fields that are defined alike have one column and one type, and are written alike. -/
theorem Field.of_same {f g : Field} (h : f.same g = true) :
    f.type = g.type ∧ f.column = g.column ∧ f.readonly = g.readonly := by
  have hsome {α : Type} {agrees : α → α → Bool} {x y : Option α}
      (h : optionAgrees agrees x y = true) : x.isSome = y.isSome := by
    cases x <;> cases y <;> first | rfl | cases h
  simp only [same, Bool.and_eq_true, decide_eq_true_eq, beq_iff_eq] at h
  rcases h with ⟨⟨⟨⟨⟨⟨⟨hname, htype⟩, -⟩, haliased⟩, hmaterialized⟩, -⟩, hstored⟩, hmark⟩
  refine ⟨htype, ?_, ?_⟩
  · rw [column, column, hname, hstored]
  · rw [readonly, readonly, hmark, hsome haliased, hsome hmaterialized]

theorem Model.forall₂_of_listAgrees {α : Type} {agrees : α → α → Bool} {xs ys : List α}
    (h : listAgrees agrees xs ys = true) : List.Forall₂ (fun x y => agrees x y = true) xs ys := by
  induction xs generalizing ys with
  | nil =>
    cases ys with
    | nil => exact .nil
    | cons y ys => cases h
  | cons x xs ih =>
    cases ys with
    | nil => cases h
    | cons y ys =>
      simp only [listAgrees, Bool.and_eq_true] at h
      exact .cons h.1 (ih h.2)

/-- The fields of models that are defined alike are defined alike one by one. -/
theorem Model.forall₂_fields {m n : Model} (h : m.same n = true) :
    List.Forall₂ (fun f g => Field.same f g = true) m.fields n.fields := by
  simp only [same, Bool.and_eq_true] at h
  exact forall₂_of_listAgrees h.1.1.2

/-- An item of a list is found where it is by a key that no other one has. -/
theorem exists_findFinIdx? {α β : Type} [DecidableEq β] {key : α → β} {xs : List α}
    (hnodup : (xs.map key).Nodup) {x : α} (hx : x ∈ xs) :
    ∃ i, xs.findFinIdx? (fun y => key y = key x) = some i ∧ xs.get i = x := by
  cases h : xs.findFinIdx? (fun y => key y = key x) with
  | none =>
    have hnone := List.findFinIdx?_eq_none_iff.1 h x hx
    simp at hnone
  | some i =>
    have hkey := (List.findFinIdx?_eq_some_iff.1 h).1
    simp only [decide_eq_true_eq] at hkey
    exact ⟨i, rfl, List.inj_on_of_nodup_map hnodup (List.get_mem xs i) hx hkey⟩

theorem Model.columnIndex?_column {m : Model} {f : Field} (hf : f ∈ m.fields) :
    ∃ i, m.columnIndex? f.column = some i ∧ m.fields.get i = f :=
  exists_findFinIdx? m.nodup_columns hf

theorem Model.fieldIndex?_name {m : Model} {f : Field} (hf : f ∈ m.fields) :
    ∃ i, m.fieldIndex? f.name = some i ∧ m.fields.get i = f :=
  exists_findFinIdx? m.nodup_names hf

/-- The fields that are inserted of a record and those of a model that is defined like its
    own are alike one by one. -/
theorem Record.forall₂_written {r : Record} {m : Model} (h : r.model.same m = true) :
    List.Forall₂ (fun p f => p.1.type = f.type ∧ p.1.column = f.column) r.written m.insertable := by
  have hfields := Model.forall₂_fields h
  have hlength := r.length_values
  unfold written pairs Model.insertable
  generalize r.model.fields = fs at *
  generalize r.values = vs at *
  generalize m.fields = gs at *
  -- Both passes leave out the same fields, so they go on side by side.
  induction hfields generalizing vs with
  | nil => exact .nil
  | @cons f g fs gs hfg _ ih =>
    cases vs with
    | nil => cases hlength
    | cons v vs =>
      rcases Field.of_same hfg with ⟨htype, hcolumn, hreadonly⟩
      have hrest := ih vs (Nat.succ.inj hlength)
      rw [List.zip_cons_cons, List.filter_cons, List.filter_cons]
      cases hmark : g.readonly with
      | true =>
        rw [hmark] at hreadonly
        simp only [hreadonly, Bool.not_true, Bool.false_eq_true, if_false]
        exact hrest
      | false =>
        rw [hmark] at hreadonly
        simp only [hreadonly, Bool.not_false, if_true]
        exact .cons ⟨htype, hcolumn⟩ hrest

namespace Insertion

/-- A cell is read with the type of its column as what the column keeps. -/
theorem exists_cellValue? {m : Model} {f g : Field} {v : Value} (hg : g ∈ m.fields)
    (htype : f.type = g.type) (hcolumn : f.column = g.column) (hfit : g.type.decimalsFit = true)
    (haccept : ∃ w, f.type.accept v = .ok w ∧ w.isLasting = true) :
    ∃ u, cellValue? m g.column (f.type.literalOf (f.kept v)) = some (f.column, u) ∧
      u.same (f.type.norm (f.kept v)) = true := by
  rcases haccept with ⟨w, hw, hlasting⟩
  rcases Model.columnIndex?_column hg with ⟨i, hindex, hget⟩
  have hkept : f.kept v = w := by rw [Field.kept, hw]
  rw [← Value.isLegible_eq_isLasting] at hlasting
  rw [← htype] at hfit
  rcases ColumnType.returns_of_acceptAs f.type hfit hw hlasting with ⟨u, hread, hsame⟩
  refine ⟨u, ?_, by rw [hkept]; exact hsame⟩
  rw [cellValue?, hindex, hkept, hcolumn]
  simp only [Option.bind_eq_bind, Option.bind_some, hget, ← htype, ColumnType.decodeLiteral,
    hread f.type]
  rfl

/-- The row of a record is read as what a table keeps of the record. -/
theorem exists_rowValues? {m : Model} {r : Record} (hsame : r.model.same m = true)
    (haccept : r.Accepted) (hfit : ∀ f ∈ m.insertable, f.type.decimalsFit = true) :
    ∃ us, rowValues? m (m.insertable.map Field.column) r.cells = some us ∧ r.IsStoredAs us := by
  have hpairs := Record.forall₂_written hsame
  have hmem : ∀ f ∈ m.insertable, f ∈ m.fields := fun f hf => (List.mem_filter.1 hf).1
  have hlength : (m.insertable.map Field.column).length = r.cells.length := by
    rw [Record.cells, List.length_map, List.length_map, hpairs.length_eq]
  rw [rowValues?, if_pos hlength]
  unfold Record.Accepted at haccept
  unfold Record.cells Record.IsStoredAs Record.stored
  generalize r.written = ps at *
  generalize m.insertable = fs at *
  clear hlength
  -- Induction on the fields whose columns are named, side by side with those of the record.
  induction hpairs with
  | nil => exact ⟨[], rfl, .nil⟩
  | @cons p f ps fs hpf _ ih =>
    rcases exists_cellValue? (hmem f List.mem_cons_self) hpf.1 hpf.2
      (hfit f List.mem_cons_self) (haccept p List.mem_cons_self) with ⟨u, hu, hus⟩
    rcases ih (fun q hq => haccept q (List.mem_cons_of_mem p hq))
      (fun g hg => hfit g (List.mem_cons_of_mem f hg))
      (fun g hg => hmem g (List.mem_cons_of_mem f hg)) with ⟨us, hread, hall⟩
    refine ⟨(p.1.column, u) :: us, ?_, .cons ⟨rfl, hus⟩ hall⟩
    rw [List.map_cons, List.map_cons, List.zip_cons_cons, List.mapM_cons, hu, hread]
    rfl

/-- The statement for some records inserts what a table keeps of them, one row for each and
    in their order. -/
theorem exists_values? {m : Model} {records : List Record}
    (hsame : ∀ r ∈ records, r.model.same m = true) (haccept : ∀ r ∈ records, r.Accepted)
    (hfit : ∀ f ∈ m.insertable, f.type.decimalsFit = true) :
    ∃ rows, values? m ⟨m.table, m.insertable.map Field.column, records.map Record.cells⟩ =
        some rows ∧ List.Forall₂ Record.IsStoredAs records rows := by
  rw [values?, if_pos rfl]
  dsimp only
  induction records with
  | nil => exact ⟨[], rfl, .nil⟩
  | cons r records ih =>
    rcases exists_rowValues? (hsame r List.mem_cons_self) (haccept r List.mem_cons_self) hfit
      with ⟨us, hus, hrow⟩
    rcases ih (fun q hq => hsame q (List.mem_cons_of_mem r hq))
      (fun q hq => haccept q (List.mem_cons_of_mem r hq)) with ⟨rows, hread, hall⟩
    refine ⟨us :: rows, ?_, .cons hrow hall⟩
    rw [List.map_cons, List.mapM_cons, hus, hread]
    rfl

end Insertion

end ColumnStore
