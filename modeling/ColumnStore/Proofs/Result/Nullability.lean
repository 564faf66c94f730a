import ColumnStore.Proofs.ColumnType.Argument
import ColumnStore.Proofs.Except.Basic
import ColumnStore.Result.Rows

/-!
# Absent Cells of Columns That Are Not Understood

The header of a result may announce a type that the library does not know, and the type is taken
to be text then. What is announced to be absent at times is taken to be text as a whole, with
the wrapper that says so. A cell may still be absent in such a column, and no text is.

So an absent cell is read exactly where the type inside the wrapper is understood. Where it is
not, the row is refused although all of its cells are as announced, and that ends the result.

## Main definitions

* `ColumnType.absentName`, `ColumnType.absent`: How content that may be absent is announced, and
  its type.

## Theorems

* `ColumnType.read_absentName`: The announcement is understood as what is inside of it is.
* `ColumnType.decodeCell_absentName`: What is read from an absent cell.
* `Header.exists_row_iff`: Rows are read cell by cell.
* `Header.decodeColumn_absentName_iff`: When an absent cell is read.
* `Header.row_of_absent_cell`: Rows with an absent cell.
-/

namespace ColumnStore

namespace ColumnType

/-- How a header announces content of a type that may be absent, stored by value or not. -/
def absentName (byValue : Bool) (s : List Char) : List Char :=
  if byValue then applied "LowCardinality".toList [applied "Nullable".toList [s]]
  else applied "Nullable".toList [s]

/-- A type to which the absence of content is added, stored by value or not. -/
def absent (byValue : Bool) (t : ColumnType) : ColumnType :=
  if byValue then lowCardinality (nullable t) else nullable t

/-- The announcement is understood exactly if what is inside of it is. -/
theorem read_absentName (byValue : Bool) (s : List Char) (t : ColumnType) :
    read (absentName byValue s) = .ok t ↔ ∃ u, read s = .ok u ∧ t = absent byValue u := by
  have hnullable := read_wrapper "Nullable" (f := nullable) rfl rfl
  have hstored := read_wrapper "LowCardinality" (f := lowCardinality) rfl rfl
  cases byValue with
  | false => exact hnullable s t
  | true =>
    refine (hstored _ t).trans ?_
    constructor
    · rintro ⟨v, hv, rfl⟩
      rcases (hnullable s v).1 hv with ⟨u, hu, rfl⟩
      exact ⟨u, hu, rfl⟩
    · rintro ⟨u, hu, rfl⟩
      exact ⟨nullable u, (hnullable s _).2 ⟨u, hu, rfl⟩, rfl⟩

/-- The type is taken to be text as a whole if what is inside is not understood. -/
theorem readLenient_absentName (byValue : Bool) (s : List Char) :
    readLenient (absentName byValue s) =
      match read s with
      | .ok t => absent byValue t
      | .error _ => string := by
  cases hs : read s with
  | ok t =>
    unfold readLenient
    rw [(read_absentName byValue s _).2 ⟨t, hs, rfl⟩]
  | error e =>
    unfold readLenient
    cases h : read (absentName byValue s) with
    | ok t =>
      rcases (read_absentName byValue s t).1 h with ⟨u, hu, -⟩
      cases hs.symm.trans hu
    | error e' => rfl

/-- An absent cell is absent content if the type inside is understood, and refused as text
    otherwise. -/
theorem decodeCell_absentName (byValue : Bool) (s : List Char) :
    (readLenient (absentName byValue s)).decodeCell none =
      match read s with
      | .ok _ => .ok .null
      | .error _ => .error (.unexpectedNull string) := by
  rw [readLenient_absentName]
  cases read s with
  | ok t => cases byValue <;> rfl
  | error e => rfl

end ColumnType

namespace Header

open ColumnType (absentName decodeCell_absentName)

variable {statement : String} {nameLine typeLine : List Char} {h : Header} {i : Nat}

/-- A header is read if neither of its lines reads as an error and they have the same width. -/
theorem read_eq_ok_iff : read statement nameLine typeLine = .ok h ↔
    Wire.exceptionLine? statement nameLine = none ∧
      Wire.exceptionLine? statement typeLine = none ∧
      (texts nameLine).length = (texts typeLine).length ∧
      h = ⟨((texts nameLine).map String.ofList).zip
        ((texts typeLine).map ColumnType.readLenient)⟩ := by
  unfold read
  cases Wire.exceptionLine? statement nameLine with
  | some e => exact iff_of_false nofun nofun
  | none =>
    cases Wire.exceptionLine? statement typeLine with
    | some e => exact iff_of_false nofun nofun
    | none =>
      by_cases hlength : (texts nameLine).length = (texts typeLine).length
      · simp [hlength, eq_comm, pure, Except.pure]
      · simp [hlength, throw, throwThe, MonadExceptOf.throw]

/-- The columns have the types that the second line announces, or text. -/
theorem columns_of_read (hread : read statement nameLine typeLine = .ok h) {s : List Char}
    (htype : (texts typeLine)[i]? = some s) :
    ∃ name, h.columns[i]? = some (name, ColumnType.readLenient s) := by
  rcases read_eq_ok_iff.1 hread with ⟨-, -, hlength, rfl⟩
  have hi : i < (texts nameLine).length := by
    rw [hlength]
    exact (List.getElem?_eq_some_iff.1 htype).1
  refine ⟨String.ofList (texts nameLine)[i], List.getElem?_zip_eq_some.2 ⟨?_, ?_⟩⟩
  · rw [List.getElem?_map, List.getElem?_eq_getElem hi, Option.map_some]
  · rw [List.getElem?_map, htype, Option.map_some]

/-- A row is read exactly if all of its cells are. -/
theorem exists_row_iff {cells : Cells} : (∃ row, h.row cells = .ok row) ↔
    ∀ (j : Nat) (column : String × ColumnType) (cell : Option (List Char)),
      h.columns[j]? = some column → cells[j]? = some cell →
        ∃ v, decodeColumn column cell = .ok v := by
  constructor
  · rintro ⟨row, hrow⟩ j column cell hcolumn hcell
    rcases of_map_eq_ok hrow with ⟨entries, hentries, -⟩
    have hat : (h.columns.zip cells)[j]? = some (column, cell) :=
      List.getElem?_zip_eq_some.2 ⟨hcolumn, hcell⟩
    rcases getElem?_of_mapM hentries hat with ⟨v, -, hv⟩
    exact ⟨v, hv⟩
  · intro hall
    have hcells : ∀ p ∈ h.columns.zip cells, ∃ v, decodeColumn p.1 p.2 = .ok v ∧ True := by
      intro p hp
      rcases List.mem_iff_getElem?.1 hp with ⟨j, hj⟩
      rcases List.getElem?_zip_eq_some.1 hj with ⟨hcolumn, hcell⟩
      rcases hall j _ _ hcolumn hcell with ⟨v, hv⟩
      exact ⟨v, hv, trivial⟩
    rcases exists_mapM hcells with ⟨entries, hentries, -⟩
    exact ⟨⟨entries⟩, congrArg (Except.map Row.mk) hentries⟩

/-- An absent cell of a column that is announced so is read exactly if the type inside of the
    announcement is understood, and then it is absent content. -/
theorem decodeColumn_absentName_iff {name : String} {byValue : Bool} {s : List Char}
    {entry : String × Value} :
    decodeColumn (name, ColumnType.readLenient (absentName byValue s)) none = .ok entry ↔
      (∃ t, ColumnType.read s = .ok t) ∧ entry = (name, .null) := by
  rw [decodeColumn, decodeCell_absentName]
  cases ColumnType.read s with
  | ok t =>
    constructor
    · intro h
      cases h
      exact ⟨⟨t, rfl⟩, rfl⟩
    · rintro ⟨-, rfl⟩
      rfl
  | error e => exact iff_of_false nofun fun ⟨⟨_, ht⟩, _⟩ => nomatch ht

/-- A row that is refused ends the result. -/
theorem next_of_row_eq_error {c c' : Cursor} {cells : Cells} {e : Failure}
    (hheader : c.header = some h) (hnext : c.next = (some (.ok cells), c'))
    (hrow : h.row cells = .error e) : (Rows.plain c).next =
      (some (.error (e.withStatement c'.statement)), (Rows.plain c).close) := by
  simp only [Rows.next, Rows.plain, hnext, hheader, Option.getD_some, hrow]

/-- Of a row with an absent cell in a column that is announced so, the cell is read exactly if
    the type inside of the announcement is understood. Then the row is read if the other cells
    are, with absent content in this place. Otherwise the row is refused, and that ends the
    result. -/
theorem row_of_absent_cell (hread : read statement nameLine typeLine = .ok h) {byValue : Bool}
    {s : List Char} (htype : (texts typeLine)[i]? = some (absentName byValue s)) {cells : Cells}
    (hcell : cells[i]? = some none) :
    ((∃ row, h.row cells = .ok row) ↔ (∃ t, ColumnType.read s = .ok t) ∧
        ∀ j column cell, j ≠ i → h.columns[j]? = some column → cells[j]? = some cell →
          ∃ v, decodeColumn column cell = .ok v) ∧
      (∀ row, h.row cells = .ok row → row.values[i]? = some .null) ∧
      ((∀ t, ColumnType.read s ≠ .ok t) → ∀ c c', c.header = some h →
        c.next = (some (.ok cells), c') →
          ∃ e, (Rows.plain c).next = (some (.error e), (Rows.plain c).close)) := by
  rcases columns_of_read hread htype with ⟨name, hcolumn⟩
  have hiff : (∃ row, h.row cells = .ok row) ↔ (∃ t, ColumnType.read s = .ok t) ∧
      ∀ j column cell, j ≠ i → h.columns[j]? = some column → cells[j]? = some cell →
        ∃ v, decodeColumn column cell = .ok v := by
    rw [exists_row_iff]
    constructor
    · intro hall
      rcases hall i _ _ hcolumn hcell with ⟨v, hv⟩
      exact ⟨(decodeColumn_absentName_iff.1 hv).1, fun j column cell _ => hall j column cell⟩
    · rintro ⟨ht, hothers⟩ j column cell hcolumn' hcell'
      by_cases hj : j = i
      · subst hj
        cases hcolumn.symm.trans hcolumn'
        cases hcell.symm.trans hcell'
        exact ⟨_, decodeColumn_absentName_iff.2 ⟨ht, rfl⟩⟩
      · exact hothers j column cell hj hcolumn' hcell'
  refine ⟨hiff, ?_, ?_⟩
  · intro row hrow
    rcases of_map_eq_ok hrow with ⟨entries, hentries, rfl⟩
    have hat : (h.columns.zip cells)[i]? =
        some ((name, ColumnType.readLenient (absentName byValue s)), none) :=
      List.getElem?_zip_eq_some.2 ⟨hcolumn, hcell⟩
    rcases getElem?_of_mapM hentries hat with ⟨entry, hentry, hdecoded⟩
    rw [Row.values, List.getElem?_map, hentry, Option.map_some,
      (decodeColumn_absentName_iff.1 hdecoded).2]
  · intro hs c c' hheader hnext
    cases hrow : h.row cells with
    | ok row =>
      rcases (hiff.1 ⟨row, hrow⟩).1 with ⟨t, ht⟩
      exact absurd ht (hs t)
    | error e => exact ⟨_, next_of_row_eq_error hheader hnext hrow⟩

/-- The header of a single column. -/
theorem read_single (statement : String) {name type : List Char}
    (hname : Wire.exceptionLine? statement name = none)
    (htype : Wire.exceptionLine? statement type = none) (hnames : texts name = [name])
    (htypes : texts type = [type]) : read statement name type =
      .ok ⟨[(String.ofList name, ColumnType.readLenient type)]⟩ := by
  refine read_eq_ok_iff.2 ⟨hname, htype, ?_, ?_⟩
  · rw [hnames, htypes]
    rfl
  · rw [hnames, htypes]
    rfl

/-- A text may be absent, if it is announced so. -/
theorem absent_text_is_read :
    read "SELECT n" "n".toList "Nullable(String)".toList = .ok ⟨[("n", .nullable .string)]⟩ ∧
      ∃ r, row ⟨[("n", .nullable .string)]⟩ [none] = .ok r ∧ r.values[0]? = some .null := by
  have htype : ColumnType.readLenient "Nullable(String)".toList = .nullable .string :=
    ColumnType.readLenient_absentName false "String".toList
  have hread : read "SELECT n" "n".toList "Nullable(String)".toList =
      .ok ⟨[("n", ColumnType.readLenient "Nullable(String)".toList)]⟩ :=
    read_single "SELECT n" rfl rfl rfl rfl
  rw [htype] at hread
  have htext : (texts "Nullable(String)".toList)[0]? = some (absentName false "String".toList) :=
    rfl
  have hcell : ([none] : Cells)[0]? = some none := rfl
  have habsent := row_of_absent_cell hread htext hcell
  have hothers : ∀ (j : Nat) (column : String × ColumnType) (cell : Option (List Char)), j ≠ 0 →
      [("n", ColumnType.nullable .string)][j]? = some column → ([none] : Cells)[j]? = some cell →
        ∃ v, decodeColumn column cell = .ok v := by
    intro j column cell hj _ hcell
    cases j with
    | zero => exact absurd rfl hj
    | succ j => cases hcell
  rcases habsent.1.2 ⟨⟨.string, rfl⟩, hothers⟩ with ⟨r, hr⟩
  exact ⟨hread, r, hr, habsent.2.1 r hr⟩

/-- A wide integer is not understood, and one that may be absent is refused where it is. -/
theorem absent_wide_integer_is_refused :
    read "SELECT n" "n".toList "Nullable(Int128)".toList = .ok ⟨[("n", .string)]⟩ ∧
      cells ⟨[("n", .string)]⟩ "SELECT n" "\\N".toList = .ok [none] ∧
      row ⟨[("n", .string)]⟩ [none] =
        .error (.ofCell "n" none (.cell (.unexpectedNull .string))) := by
  have htype : ColumnType.readLenient "Nullable(Int128)".toList = .string :=
    ColumnType.readLenient_absentName false "Int128".toList
  have hread : read "SELECT n" "n".toList "Nullable(Int128)".toList =
      .ok ⟨[("n", ColumnType.readLenient "Nullable(Int128)".toList)]⟩ :=
    read_single "SELECT n" rfl rfl rfl rfl
  rw [htype] at hread
  exact ⟨hread, rfl, rfl⟩

end Header

end ColumnStore
