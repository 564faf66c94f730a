import ColumnStore.Proofs.Query.Layout
import ColumnStore.Proofs.Query.Names
import ColumnStore.Proofs.Statement.Insertion
import ColumnStore.Result.Rows

/-!
# Selected Fields in Records

A field is known by its name, by the column in which it is stored, and by its place in the
model. A query selects by names, its statement asks for columns, and a row of the answer is
put into the places of a record. None of this takes one field for another, not even where the
column of a field has the name of another field: in a record each selected field has the value
of the cell in its own column, read with its own type, and each of the others has its default.

The header of an answer has the names under which the items of the statement are selected.
They are read off the text of the statement: the name of an item is the last one in it, be it
the column itself or what stands after `AS`.

Cells are set one after the other, but no field is set twice, so the order of the columns does
not matter as long as the cells are in the same order.

## Main definitions

* `Lexical.labelOf?`: The name under which an item is selected.
* `Header.cell?`: The cell in a column.
* `Field.Holds`: What a record has in a field.

## Theorems

* `Query.labels_selection`: The names under which fields are selected are their columns.
* `Places.fill_eq_ok_iff`: What is in the places after all cells are set.
* `Places.record_of_names`: The record of a row, whatever the order of its columns.
* `Query.record_of_selection`: The records of the rows of a query.
-/

namespace ColumnStore

/-! ## Names of selected items -/

namespace Lexical

/-- The name under which an item is selected, given its text. -/
def labelOf? (item : List Char) : Option String :=
  (split? item).bind fun ps => (names ps).getLast?

end Lexical

namespace Query

open Lexical

theorem Alike.refl (q : Query) : Alike q q where
  distinct := rfl
  merged := rfl
  window := rfl
  filters := List.forall₂_same.2 fun _ _ => rfl
  aggregates := List.forall₂_same.2 fun _ _ => rfl
  fields := rfl
  groups := rfl
  order := List.forall₂_same.2 fun _ _ => rfl
  joins := List.forall₂_same.2 fun _ _ => ⟨rfl, rfl⟩

/-- A field is selected under the name of its column, qualified or not. -/
theorem labelOf?_fieldSql (q : Query) (f : Field) : labelOf? (q.fieldSql f) = some f.column := by
  rcases parallel_field (Alike.refl q) f f with ⟨ps, -, hsplits, -, -⟩
  rw [labelOf?, hsplits.split?, Option.bind_some, ← names_contents, hsplits.contents]
  unfold fieldStrings
  cases q.joins.isEmpty <;> simp [columnString, names, Piece.name?]

/-- The names under which fields are selected are their columns. -/
theorem labels_selection {q : Query} (hq : q.isAggregate = false) :
    q.selection.mapM labelOf? = some (q.selectedFields.map Field.column) := by
  rw [selection, hq, if_neg Bool.false_ne_true, List.mapM_map]
  exact mapM_eq_pure fun f _ => q.labelOf?_fieldSql f

theorem selectedFields_sublist (q : Query) : q.selectedFields.Sublist q.model.fields := by
  unfold selectedFields
  cases q.selected with
  | none => exact List.Sublist.refl _
  | some names => exact List.filter_sublist

end Query

/-! ## Cells in places -/

/-- A key that stands in one pair only is found with what it is paired with. -/
theorem lookup_eq_some_iff {α β : Type} [DecidableEq α] {pairs : List (α × β)}
    (h : (pairs.map Prod.fst).Nodup) (a : α) (b : β) :
    pairs.lookup a = some b ↔ (a, b) ∈ pairs := by
  induction pairs with
  | nil => simp
  | cons p pairs ih =>
    rcases p with ⟨a', b'⟩
    rw [List.map_cons, List.nodup_cons] at h
    by_cases ha : a = a'
    · subst ha
      have hno : (a, b) ∉ pairs := fun hmem => h.1 (List.mem_map.2 ⟨(a, b), hmem, rfl⟩)
      simp [List.lookup_cons_self, hno, eq_comm]
    · rw [List.lookup_cons, beq_false_of_ne ha, ih h.2]
      simp [ha]

namespace Header

variable {h h' : Header} {cells cells' : Cells}

/-- The cell in the column of a name. -/
def cell? (h : Header) (cells : Cells) (column : String) : Option (Option (List Char)) :=
  (h.names.zip cells).lookup column

/-- The names of columns are the keys of a row. -/
theorem keys_eq (hcells : cells.length = h.width) : (h.names.zip cells).map Prod.fst = h.names := by
  have hwidth : h.names.length ≤ cells.length := by
    rw [hcells, width, names, List.length_map]
  exact List.map_fst_zip hwidth

theorem cell?_eq_some_iff (hnodup : h.names.Nodup) (hcells : cells.length = h.width)
    (column : String) (cell : Option (List Char)) :
    h.cell? cells column = some cell ↔ (column, cell) ∈ h.names.zip cells :=
  lookup_eq_some_iff ((keys_eq hcells).symm ▸ hnodup) column cell

theorem exists_cell? (hnodup : h.names.Nodup) (hcells : cells.length = h.width)
    {column : String} (hcolumn : column ∈ h.names) : ∃ cell, h.cell? cells column = some cell := by
  rw [← keys_eq hcells, List.mem_map] at hcolumn
  rcases hcolumn with ⟨⟨name, cell⟩, hmem, rfl⟩
  exact ⟨cell, (cell?_eq_some_iff hnodup hcells name cell).2 hmem⟩

theorem names_of_perm (hcells : cells.length = h.width) (hcells' : cells'.length = h'.width)
    (hperm : (h'.columns.zip cells').Perm (h.columns.zip cells)) : h'.names.Perm h.names := by
  have hcolumns := hperm.map Prod.fst
  rw [List.map_fst_zip hcells.ge, List.map_fst_zip hcells'.ge] at hcolumns
  exact hcolumns.map _

/-- Columns in another order, with their cells, have the same cells under their names. -/
theorem cell?_of_perm (hnodup : h.names.Nodup) (hcells : cells.length = h.width)
    (hcells' : cells'.length = h'.width)
    (hperm : (h'.columns.zip cells').Perm (h.columns.zip cells)) (column : String) :
    h'.cell? cells' column = h.cell? cells column := by
  have hpairs (h : Header) (cells : Cells) :
      h.names.zip cells = (h.columns.zip cells).map (Prod.map Prod.fst id) := List.zip_map_left
  have hnamed : (h'.names.zip cells').Perm (h.names.zip cells) := by
    rw [hpairs, hpairs]
    exact hperm.map _
  have hnodup' := (names_of_perm hcells hcells' hperm).nodup_iff.2 hnodup
  refine Option.ext fun cell => ?_
  rw [cell?_eq_some_iff hnodup' hcells', cell?_eq_some_iff hnodup hcells, hnamed.mem_iff]

end Header

/-- What a record has in a field, given the fields that were asked for and a row: the value of
    the cell in the column of the field, or the default. -/
def Field.Holds (asked : List Field) (h : Header) (cells : Cells) (f : Field) (v : Value) : Prop :=
  (f ∈ asked → ∃ cell, h.cell? cells f.column = some cell ∧ f.decode cell = .ok v) ∧
    (f ∉ asked → v = f.default)

/-- Places of a model whose fields have the same column are the same. -/
theorem Model.eq_of_column_eq (m : Model) {i j : Fin m.fields.length}
    (h : (m.fields.get i).column = (m.fields.get j).column) : i = j :=
  List.nodup_iff_injective_get.1 (List.Nodup.of_map _ m.nodup_columns)
    (List.inj_on_of_nodup_map m.nodup_columns (List.get_mem m.fields i) (List.get_mem m.fields j) h)

namespace Places

variable {m : Model}

/-- What is in the places after all cells are set, none of them in the place of another: the
    values of the cells, and what was there before where no cell was set. -/
theorem fill_eq_ok_iff {cells : List (Fin m.fields.length × Option (List Char))}
    {values result : List Value} (hlength : values.length = m.fields.length)
    (hnodup : (cells.map Prod.fst).Nodup) :
    fill m cells values = .ok result ↔
      result.length = m.fields.length ∧ ∀ i : Fin m.fields.length,
        (∀ cell, (i, cell) ∈ cells →
          ∃ v, (m.fields.get i).decode cell = .ok v ∧ result[i.val]? = some v) ∧
        (i ∉ cells.map Prod.fst → result[i.val]? = values[i.val]?) := by
  induction cells generalizing values with
  | nil =>
    rw [fill, Except.ok.injEq]
    constructor
    · rintro rfl
      exact ⟨hlength, fun i => ⟨fun _ hmem => absurd hmem List.not_mem_nil, fun _ => rfl⟩⟩
    · rintro ⟨hresult, hplaces⟩
      refine List.ext_getElem? fun j => ?_
      by_cases hj : j < m.fields.length
      · exact ((hplaces ⟨j, hj⟩).2 List.not_mem_nil).symm
      · rw [List.getElem?_eq_none (by omega), List.getElem?_eq_none (by omega)]
  | cons c cells ih =>
    rcases c with ⟨i, cell⟩
    rw [List.map_cons, List.nodup_cons] at hnodup
    cases hdecode : (m.fields.get i).decode cell with
    | error e =>
      rw [fill, hdecode]
      constructor
      · intro h
        cases h
      · rintro ⟨-, hplaces⟩
        rcases (hplaces i).1 cell List.mem_cons_self with ⟨v, hv, -⟩
        rw [hdecode] at hv
        cases hv
    | ok v =>
      have hset : (values.set i.val v).length = m.fields.length := by rw [List.length_set, hlength]
      have hfirst : fill m ((i, cell) :: cells) values = fill m cells (values.set i.val v) := by
        rw [fill, hdecode]
        rfl
      rw [hfirst, ih hset hnodup.2]
      refine and_congr_right fun hresult => forall_congr' fun j => ?_
      -- The place of the first cell is not set again, and other places are not touched by it.
      by_cases hj : j = i
      · subst hj
        have hnone : ∀ cell', (j, cell') ∉ cells :=
          fun cell' hmem => hnodup.1 (List.mem_map.2 ⟨_, hmem, rfl⟩)
        have hplace : j.val < values.length := by omega
        have hvalue : result[j.val]? = some v ↔
            ∃ w, (m.fields.get j).decode cell = .ok w ∧ result[j.val]? = some w := by
          rw [hdecode]
          simp
        simpa [hnone, hnodup.1, List.getElem?_set_self hplace] using hvalue
      · have hother : (values.set i.val v)[j.val]? = values[j.val]? :=
          List.getElem?_set_ne fun h => hj (Fin.ext h.symm)
        simp [hj, hother]

theorem record_eq_ok_iff {p : Places} {cells : Cells} {r : Record} :
    p.record cells = .ok r ↔ r.model = p.model ∧
      fill p.model (p.fields.zip cells) (p.model.fields.map Field.default) = .ok r.values := by
  unfold record
  split
  · next values hfill =>
    constructor
    · intro h
      cases h
      exact ⟨rfl, hfill⟩
    · rcases r with ⟨model, values', hlength⟩
      rintro ⟨rfl, hfill'⟩
      cases hfill.symm.trans hfill'
      rfl
  · next e hfill =>
    constructor
    · intro h
      cases h
    · rintro ⟨-, hfill'⟩
      cases hfill.symm.trans hfill'

/-- The places for names of columns are those of the fields that are stored in them. -/
theorem exists_ofHeader {h : Header} (hcolumns : ∀ n ∈ h.names, ∃ f ∈ m.fields, f.column = n) :
    ∃ is, ofHeader m h = .ok ⟨m, is⟩ ∧
      h.names = is.map fun i => (m.fields.get i).column := by
  have hfind : ∀ n ∈ h.names, ∃ i, find m n = .ok i ∧ n = (m.fields.get i).column := by
    intro n hn
    rcases hcolumns n hn with ⟨f, hf, rfl⟩
    rcases Model.columnIndex?_column hf with ⟨i, hindex, hget⟩
    exact ⟨i, by rw [find, hindex], by rw [hget]⟩
  rcases exists_mapM hfind with ⟨is, his, hnames⟩
  refine ⟨is, ?_, ?_⟩
  · rw [ofHeader, his]
    rfl
  · exact List.forall₂_eq_eq_eq ▸ (List.forall₂_map_right_iff.2 hnames)

section

variable {asked : List Field} {h : Header} {is : List (Fin m.fields.length)} {cells : Cells}

theorem length_places (his : h.names = is.map fun i => (m.fields.get i).column)
    (hcells : cells.length = h.width) : is.length = cells.length := by
  rw [hcells, ← List.length_map fun i => (m.fields.get i).column, ← his]
  exact List.length_map _

/-- The cell in the column of a field is the one that is set at its place. -/
theorem cell?_eq_some_iff (his : h.names = is.map fun i => (m.fields.get i).column)
    (hnodup : h.names.Nodup) (hcells : cells.length = h.width) (i : Fin m.fields.length)
    (cell : Option (List Char)) :
    h.cell? cells (m.fields.get i).column = some cell ↔ (i, cell) ∈ is.zip cells := by
  rw [Header.cell?_eq_some_iff hnodup hcells, his, List.zip_map_left, List.mem_map]
  constructor
  · rintro ⟨⟨j, cell'⟩, hmem, hsame⟩
    rw [Prod.map_apply, Prod.mk.injEq] at hsame
    cases hsame.2
    rwa [← m.eq_of_column_eq hsame.1]
  · intro hmem
    exact ⟨(i, cell), hmem, rfl⟩

/-- A place is among those of the header exactly if its field was asked for. -/
theorem mem_places_iff (his : h.names = is.map fun i => (m.fields.get i).column)
    (hasked : asked.Sublist m.fields) (hnames : h.names.Perm (asked.map Field.column))
    (i : Fin m.fields.length) : i ∈ is ↔ m.fields.get i ∈ asked := by
  have hcolumn : (m.fields.get i).column ∈ is.map (fun i => (m.fields.get i).column) ↔
      (m.fields.get i).column ∈ asked.map Field.column := by
    rw [← his, hnames.mem_iff]
  constructor
  · intro hi
    rcases List.mem_map.1 (hcolumn.1 (List.mem_map_of_mem hi)) with ⟨f, hf, hsame⟩
    rwa [← List.inj_on_of_nodup_map m.nodup_columns (hasked.subset hf) (List.get_mem m.fields i)
      hsame]
  · intro hi
    rcases List.mem_map.1 (hcolumn.2 (List.mem_map_of_mem hi)) with ⟨j, hj, hsame⟩
    rwa [← m.eq_of_column_eq hsame]

/-- What is in the place of a field after all cells are set is what a record has to have. -/
theorem holds_iff (his : h.names = is.map fun i => (m.fields.get i).column)
    (hasked : asked.Sublist m.fields) (hnames : h.names.Perm (asked.map Field.column))
    (hnodup : h.names.Nodup) (hcells : cells.length = h.width) {values : List Value}
    {i : Fin m.fields.length} {v : Value} (hv : values[i.val]? = some v) :
    (∀ cell, (i, cell) ∈ is.zip cells →
        ∃ w, (m.fields.get i).decode cell = .ok w ∧ values[i.val]? = some w) ∧
      (i ∉ is → values[i.val]? = (m.fields.map Field.default)[i.val]?) ↔
    Field.Holds asked h cells (m.fields.get i) v := by
  have hmem := mem_places_iff his hasked hnames i
  have hcell := cell?_eq_some_iff his hnodup hcells i
  have hdefault : (m.fields.map Field.default)[i.val]? = some (m.fields.get i).default := by
    simp
  have hwidth := length_places his hcells
  rw [Field.Holds, ← hmem, hv, hdefault, Option.some.injEq]
  refine and_congr_left fun _ => ?_
  constructor
  · intro hset hi
    rw [← List.map_fst_zip hwidth.le, List.mem_map] at hi
    rcases hi with ⟨⟨j, cell⟩, hpair, rfl⟩
    rcases hset cell hpair with ⟨w, hw, hsame⟩
    exact ⟨cell, (hcell cell).2 hpair, by rw [hw, Option.some.inj hsame]⟩
  · intro hholds cell hpair
    rcases hholds (List.of_mem_zip hpair).1 with ⟨cell', hcell', hdecode⟩
    rw [(hcell cell).2 hpair, Option.some.injEq] at hcell'
    exact ⟨v, by rw [hcell', hdecode], rfl⟩

end

/-- The record of a row, whatever the order of its columns. -/
theorem record_of_names {asked : List Field} (hasked : asked.Sublist m.fields) {h : Header}
    (hnames : h.names.Perm (asked.map Field.column)) :
    ∃ p, ofHeader m h = .ok p ∧ ∀ cells : Cells, cells.length = h.width → ∀ r,
      p.record cells = .ok r ↔
        r.model = m ∧ List.Forall₂ (Field.Holds asked h cells) m.fields r.values := by
  have hnodup : h.names.Nodup :=
    hnames.nodup_iff.2 ((hasked.map Field.column).nodup m.nodup_columns)
  have hcolumns : ∀ n ∈ h.names, ∃ f ∈ m.fields, f.column = n := by
    intro n hn
    rcases List.mem_map.1 (hnames.mem_iff.1 hn) with ⟨f, hf, hcolumn⟩
    exact ⟨f, hasked.subset hf, hcolumn⟩
  rcases exists_ofHeader hcolumns with ⟨is, hplaces, his⟩
  refine ⟨⟨m, is⟩, hplaces, fun cells hcells r => ?_⟩
  have hfirst : (is.zip cells).map Prod.fst = is := List.map_fst_zip (length_places his hcells).le
  have honce : ((is.zip cells).map Prod.fst).Nodup := by
    rw [hfirst]
    exact List.Nodup.of_map _ (his ▸ hnodup)
  rw [record_eq_ok_iff]
  refine and_congr_right fun _ => ?_
  rw [fill_eq_ok_iff (List.length_map _) honce, List.forall₂_iff_get, hfirst, eq_comm]
  refine and_congr_right fun hlength => ?_
  have hholds (i : Fin m.fields.length) (hi : i.val < r.values.length) :=
    holds_iff his hasked hnames hnodup hcells (List.getElem?_eq_getElem hi)
  constructor
  · intro hset i h₁ h₂
    exact (hholds ⟨i, h₁⟩ h₂).1 (hset ⟨i, h₁⟩)
  · intro hall i
    exact (hholds i (hlength ▸ i.isLt)).2 (hall i i.isLt (hlength ▸ i.isLt))

end Places

/-! ## Records of queries -/

namespace Query

open Lexical

/-- The answer to a query without expressions, with a header of the names under which its fields
    are selected. The header has places in the model. The record of a row has in each selected
    field the value of the cell in the column of the field, and in any other field its default;
    there is one if these cells have values. The record is the same if the columns and the cells
    are in another order. -/
theorem record_of_selection {q : Query} (hq : q.isAggregate = false) {h : Header}
    (hlabels : q.selection.mapM labelOf? = some h.names) :
    ∃ p, Places.ofHeader q.model h = .ok p ∧ ∀ cells : Cells, cells.length = h.width →
      (∀ r, p.record cells = .ok r ↔ r.model = q.model ∧
        List.Forall₂ (Field.Holds q.selectedFields h cells) q.model.fields r.values) ∧
      ((∀ f ∈ q.selectedFields, ∀ cell, h.cell? cells f.column = some cell →
        ∃ v, f.decode cell = .ok v) → ∃ r, p.record cells = .ok r) ∧
      ∀ (h' : Header) (cells' : Cells), cells'.length = h'.width →
        (h'.columns.zip cells').Perm (h.columns.zip cells) →
          ∃ p', Places.ofHeader q.model h' = .ok p' ∧
            ∀ r, p'.record cells' = .ok r ↔ p.record cells = .ok r := by
  have hnames : h.names = q.selectedFields.map Field.column :=
    Option.some.inj (hlabels.symm.trans (labels_selection hq))
  have hnodup : h.names.Nodup :=
    hnames ▸ (q.selectedFields_sublist.map Field.column).nodup q.model.nodup_columns
  rcases Places.record_of_names q.selectedFields_sublist (List.Perm.of_eq hnames) with
    ⟨p, hp, hrecord⟩
  refine ⟨p, hp, fun cells hcells => ⟨hrecord cells hcells, ?_, ?_⟩⟩
  · intro hdecode
    have hall : ∀ f ∈ q.model.fields, ∃ v, Field.Holds q.selectedFields h cells f v := by
      intro f _
      by_cases hf : f ∈ q.selectedFields
      · have hcolumn : f.column ∈ h.names := hnames ▸ List.mem_map_of_mem hf
        rcases Header.exists_cell? hnodup hcells hcolumn with ⟨cell, hcell⟩
        rcases hdecode f hf cell hcell with ⟨v, hv⟩
        exact ⟨v, fun _ => ⟨cell, hcell, hv⟩, fun hno => absurd hf hno⟩
      · exact ⟨f.default, fun hyes => absurd hyes hf, fun _ => rfl⟩
    have : Nonempty Value := ⟨.null⟩
    choose! value hvalue using hall
    refine ⟨⟨q.model, q.model.fields.map value, List.length_map _⟩, (hrecord cells hcells _).2 ?_⟩
    exact ⟨rfl, List.forall₂_map_right_iff.2 (List.forall₂_same.2 hvalue)⟩
  · intro h' cells' hcells' hperm
    have hnames' := (Header.names_of_perm hcells hcells' hperm).trans (List.Perm.of_eq hnames)
    rcases Places.record_of_names q.selectedFields_sublist hnames' with ⟨p', hp', hrecord'⟩
    refine ⟨p', hp', fun r => ?_⟩
    have hholds : Field.Holds q.selectedFields h' cells' = Field.Holds q.selectedFields h cells := by
      funext f v
      rw [Field.Holds, Field.Holds, Header.cell?_of_perm hnodup hcells hcells' hperm]
    rw [hrecord cells hcells, hrecord' cells' hcells', hholds]

/-- A table in which the column of each of two fields has the name of the other. -/
def crossed : Model :=
  ⟨"crossed", [{ name := "a", type := .string, stored := some "b" },
    { name := "b", type := .nullable .string, stored := some "a" }], none, false, rfl⟩

/-- One of the two fields, beside another table. -/
def crossedOnly : Query :=
  { all crossed with
    selected := some ["b"]
    joins := [⟨.left, crossed, ["a"]⟩] }

/-- The column `a` is that of the field `b`. -/
theorem record_of_crossed :
    crossedOnly.selection.mapM labelOf? = some ["a"] ∧
      ∃ p, Places.ofHeader crossed ⟨[("a", .string)]⟩ = .ok p ∧
        p.record [some ['x']] = .ok ⟨crossed, [.string "", .string "x"], rfl⟩ := by
  have hlabels : crossedOnly.selection.mapM labelOf? =
      some (Header.names ⟨[("a", .string)]⟩) := labels_selection rfl
  rcases record_of_selection (q := crossedOnly) rfl hlabels with ⟨p, hp, hrecord⟩
  refine ⟨hlabels, p, hp, ((hrecord [some ['x']] rfl).1 _).2 ⟨rfl, ?_⟩⟩
  have hother : crossed.fields.get ⟨0, by decide⟩ ∉ crossedOnly.selectedFields := by
    intro hmem
    have hsame := List.mem_singleton.1 hmem
    exact absurd (congrArg Field.name hsame) (by decide)
  refine .cons ⟨fun hmem => absurd hmem hother, fun _ => rfl⟩ (.cons ⟨fun _ => ?_, ?_⟩ .nil)
  · exact ⟨some ['x'], rfl, rfl⟩
  · exact fun hno => absurd (List.mem_singleton_self _) hno

end Query

end ColumnStore
