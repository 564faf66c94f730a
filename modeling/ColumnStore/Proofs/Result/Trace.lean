import ColumnStore.Proofs.Wire.Trace
import ColumnStore.Proofs.Wire.Written
import ColumnStore.Session.Basic

/-!
# Failures of Results

Every failure to read an answer names its statement, whichever way the answer arrives and
whatever is made of it: cells, plain rows, the records of a model, a text, or a number. It is a
failure of the server, of the connection or of understanding, and never a refusal of what was
asked for. Where a stream breaks off with a statement of its own, that one is named.

A cell that cannot be read is blamed on its column. A plain row reads it with the type that the
answer announces for the column, and a record with the type of the field that is stored there.
The cell and the column stand at the same place of the row and of the header, so the column that
is named is the one of the cell, also where fields are in another order than columns.

## Main definitions

* `ReadWith`: The type with which a cell is read.
* `Header.Refuses`, `Cursor.Refuses`: A cell of a row is refused.
* `Cursor.Blames`: What a failure to read from a cursor is for.
* `Rows.ReadsFrom`: Results that are made of the rows of a cursor.
* `Arrival.Fails`: What can fail while an answer is read.

## Theorems

* `Header.row_concludes`, `Places.record_concludes`: What is wrong with a row is one of its cells.
* `Places.ofHeader_concludes`: What is wrong with a header for a model.
* `Rows.ReadsFrom.next`, `Rows.ReadsFrom.after`: A result fails as a row does, or as one of its
  cells, and so do all that follow it.
* `Rows.ReadsFrom.all_concludes`, `Rows.ReadsFrom.firstNumber_concludes`: All results at once, and
  the number at the start of the first.
* `Rows.readsFrom_plain`, `Rows.records_concludes`: Plain rows and records.
* `Arrival.Fails.blames`: Each failure is one of the cursor or of a cell.
* `Arrival.statement_of_fails`: Each failure names the statement.
-/

namespace ColumnStore

open Failure (Traced Traceable)

/-- The type with which a cell in a column is read: the type that is announced for the column,
    or for a record that of the field which is stored there. -/
def ReadWith (m? : Option Model) (column : String) (announced type : ColumnType) : Prop :=
  match m? with
  | none => type = announced
  | some m => ∃ f ∈ m.fields, f.column = column ∧ f.type = type

/-- A cell of a row is refused. It stands where the column stands in the header. -/
def Header.Refuses (h : Header) (cells : Cells) (m? : Option Model) (column : String)
    (value : Option String) (error : CodecError) : Prop :=
  ∃ announced cell type, ((column, announced), cell) ∈ h.columns.zip cells ∧
    value = cell.map String.ofList ∧ ReadWith m? column announced type ∧
    type.decodeCell cell = .error error

/-- A failure for a cell that is refused. -/
def Header.RefusedAs (h : Header) (cells : Cells) (m? : Option Model) (e : Failure) : Prop :=
  ∃ column value error, h.Refuses cells m? column value error ∧
    e = .decode column value (.cell error) none

/-! ## Rows -/

/-- A plain row fails as one of its cells. -/
theorem Header.row_concludes (h : Header) (cells : Cells) :
    Concludes (h.RefusedAs cells none) (fun _ => True) (h.row cells) := by
  have hcell : ∀ p ∈ h.columns.zip cells,
      Concludes (h.RefusedAs cells none) (fun _ => True) (decodeColumn p.1 p.2) := by
    rintro ⟨⟨column, announced⟩, cell⟩ hp
    unfold decodeColumn
    cases hdecode : announced.decodeCell cell with
    | ok v => exact .ok trivial
    | error error =>
      exact .error ⟨column, _, error, ⟨announced, cell, announced, hp, rfl, rfl, hdecode⟩, rfl⟩
  exact (Concludes.mapM hcell).map fun _ _ => trivial

namespace Places

variable {m : Model} {own : Option Break}

/-- Each column has the field that is stored in it, or there is no such field. -/
theorem ofHeader_concludes (m : Model) (h : Header) :
    Concludes (Traceable own)
      (fun p => ∃ fields, p = ⟨m, fields⟩ ∧
        List.Forall₂ (fun column i => (m.fields.get i).column = column) h.names fields)
      (ofHeader m h) := by
  have hfind (column : String) : Concludes (Traceable own)
      (fun i => (m.fields.get i).column = column) (find m column) := by
    unfold find
    cases hindex : m.columnIndex? column with
    | none => exact .error fun _ => .answer _ _ rfl
    | some i =>
      have hcolumn := (List.findFinIdx?_eq_some_iff.1 hindex).1
      exact .ok (of_decide_eq_true hcolumn)
  exact (Concludes.mapM fun column _ => hfind column).bind fun fields h => .ok ⟨fields, rfl, h⟩

/-- Cells that are set one after the other fail as one of them does. -/
theorem fill_concludes (cells : List (Fin m.fields.length × Option (List Char)))
    (values : List Value) :
    Concludes (fun e => ∃ p ∈ cells, (m.fields.get p.1).decode p.2 = .error e) (fun _ => True)
      (fill m cells values) := by
  induction cells generalizing values with
  | nil => exact .ok trivial
  | cons p cells ih =>
    rcases p with ⟨i, cell⟩
    unfold fill
    cases hdecode : (m.fields.get i).decode cell with
    | error e => exact .error ⟨(i, cell), List.mem_cons_self, hdecode⟩
    | ok v =>
      refine (ih _).reason ?_
      rintro e ⟨p, hp, he⟩
      exact ⟨p, List.mem_cons_of_mem _ hp, he⟩

/-- The field of a cell is the one of the column that stands where the cell does. -/
theorem exists_mem_zip {columns : List (String × ColumnType)} {fields : List (Fin m.fields.length)}
    (h : List.Forall₂ (fun column i => (m.fields.get i).column = column.1) columns fields)
    {cells : Cells} {i : Fin m.fields.length} {cell : Option (List Char)}
    (hmem : (i, cell) ∈ fields.zip cells) :
    ∃ announced, (((m.fields.get i).column, announced), cell) ∈ columns.zip cells := by
  induction h generalizing cells with
  | nil => cases hmem
  | cons hcolumn hrest ih =>
    cases cells with
    | nil => cases hmem
    | cons c cells =>
      rw [List.zip_cons_cons, List.mem_cons] at hmem
      rcases hmem with hfirst | hmem
      · cases hfirst
        rw [hcolumn]
        exact ⟨_, List.mem_cons_self⟩
      · rcases ih hmem with ⟨announced, h⟩
        exact ⟨announced, List.mem_cons_of_mem _ h⟩

/-- A record fails as one of its cells, which is blamed on the column that it stands in. -/
theorem record_concludes {h : Header} {fields : List (Fin m.fields.length)}
    (hfields : List.Forall₂ (fun column i => (m.fields.get i).column = column) h.names fields)
    (cells : Cells) :
    Concludes (h.RefusedAs cells (some m)) (fun _ => True) (record ⟨m, fields⟩ cells) := by
  unfold record
  split
  · exact .ok trivial
  · next e hfill =>
    rcases (fill_concludes _ _).of_eq_error hfill with ⟨⟨i, cell⟩, hmem, hdecode⟩
    rcases exists_mem_zip (List.forall₂_map_left_iff.1 hfields) hmem with ⟨announced, hzip⟩
    unfold Field.decode at hdecode
    cases hcell : (m.fields.get i).type.decodeCell cell with
    | ok v =>
      rw [hcell] at hdecode
      cases hdecode
    | error error =>
      rw [hcell] at hdecode
      cases hdecode
      have hread : ReadWith (some m) (m.fields.get i).column announced (m.fields.get i).type :=
        ⟨_, List.get_mem _ i, rfl, rfl⟩
      exact .error ⟨_, _, error, ⟨announced, cell, _, hzip, rfl, hread, hcell⟩, rfl⟩

end Places

/-! ## Results -/

/-- A cell of a row that a cursor gives is refused. -/
def Cursor.Refuses (c : Cursor) (m? : Option Model) (column : String) (value : Option String)
    (error : CodecError) : Prop :=
  ∃ header n cells, c.header = some header ∧
    (afterCalls Cursor.next n c).next.1 = some (.ok cells) ∧
    header.Refuses cells m? column value error

/-- A failure that says which statement was answered: one of the cursor, or one for a cell of a
    row that the cursor gives. -/
inductive Cursor.Blames (c : Cursor) (statement : String) (own : Option Break)
    (m? : Option Model) : Failure → Prop
  /-- The cursor has failed, or what it gives is not what was asked for. -/
  | traced {e : Failure} (h : e.Traced statement own) : Blames c statement own m? e
  /-- A cell is refused. -/
  | cell {column : String} {value : Option String} {error : CodecError}
      (h : c.Refuses m? column value error) :
      Blames c statement own m? (.decode column value (.cell error) (some statement))

variable {c : Cursor} {statement : String} {own : Option Break} {m? : Option Model}

/-- A failure for a cell is one for a cell of the row that was given. -/
theorem Cursor.Answers.blames_cell (hc : c.Answers statement own) {n : Nat} {cells : Cells}
    (hgiven : (afterCalls Cursor.next n c).next.1 = some (.ok cells)) {e : Failure}
    (he : ∀ header, c.header = some header → header.RefusedAs cells m? e) :
    c.Blames statement own m? (e.withStatement statement) := by
  -- A row is given below a header only.
  have hsome := ((hc.after n).1.next.1.concludes hgiven).of_eq_ok rfl
  rw [(hc.after n).2] at hsome
  rcases Option.isSome_iff_exists.1 hsome with ⟨header, hheader⟩
  rcases he header hheader with ⟨column, value, error, hrefused, rfl⟩
  exact .cell ⟨header, n, cells, hheader, hgiven, hrefused⟩

namespace Rows

variable {α : Type} {r : Rows α}

/-- Results that are made of the rows of a cursor. Some rows may have been given before. -/
structure ReadsFrom (c : Cursor) (m? : Option Model) (r : Rows α) : Prop where
  /-- Making a result of a row fails as one of its cells does. -/
  decode : ∀ header, c.header = some header → ∀ cells,
    Concludes (header.RefusedAs cells m?) (fun _ => True) (r.decode cells)
  /-- The cursor is the same one, after some calls. -/
  cursor : ∀ c', r.cursor = some c' → ∃ n, c' = afterCalls Cursor.next n c

theorem ReadsFrom.close (h : r.ReadsFrom c m?) : r.close.ReadsFrom c m? where
  decode := h.decode
  cursor := by
    intro c' hc'
    cases hc'

/-- A result fails as its row does, or as a cell of the row. What is left is made of the rows of
    the same cursor. -/
theorem ReadsFrom.next (h : r.ReadsFrom c m?) (hc : c.Answers statement own) :
    Offers (c.Blames statement own m?) (fun _ => True) r.next.1 ∧ r.next.2.ReadsFrom c m? := by
  cases hcursor : r.cursor with
  | none =>
    simp only [Rows.next, hcursor]
    exact ⟨.nothing, h⟩
  | some c' =>
    rcases h.cursor c' hcursor with ⟨n, rfl⟩
    have hrow := (hc.after n).1.next.1
    have hafter := next_afterCalls Cursor.next n c
    rcases hnext : (afterCalls Cursor.next n c).next with ⟨given, after⟩
    rw [hnext] at hrow hafter
    simp only [Rows.next, hcursor, hnext]
    rcases given with _ | (e | cells)
    · exact ⟨.nothing, h.close⟩
    · exact ⟨.something (.error (.traced ((hrow.concludes rfl).of_eq_error rfl))), h.close⟩
    · dsimp only at hafter ⊢
      cases hdecode : r.decode cells with
      | ok x =>
        refine ⟨.something (.ok trivial), h.decode, ?_⟩
        rintro c' ⟨⟩
        exact ⟨n + 1, hafter⟩
      | error e =>
        refine ⟨.something (.error ?_), h.close⟩
        rw [hafter, (hc.after (n + 1)).1.statement_eq]
        exact hc.blames_cell (by rw [hnext]) fun header hheader =>
          (h.decode header hheader cells).of_eq_error hdecode

/-- The same after any number of results. -/
theorem ReadsFrom.after (h : r.ReadsFrom c m?) (hc : c.Answers statement own) (n : Nat) :
    (afterCalls Rows.next n r).ReadsFrom c m? :=
  sound_afterCalls (fun r : Rows α => r.ReadsFrom c m?) (fun _ h => (h.next hc).2) n h

/-- Results that are taken at once fail as they do one by one. -/
theorem ReadsFrom.take_concludes (h : r.ReadsFrom c m?) (hc : c.Answers statement own) (n : Nat) :
    ∀ x ∈ (r.take n).1, Concludes (c.Blames statement own m?) (fun _ => True) x := by
  induction n generalizing r with
  | zero => exact fun x hx => absurd hx List.not_mem_nil
  | succ n ih =>
    rcases h.next hc with ⟨hgiven, hafter⟩
    unfold take
    rcases hnext : r.next with ⟨given, after⟩
    rw [hnext] at hgiven hafter
    intro x hx
    rcases given with _ | (e | a)
    · exact absurd hx List.not_mem_nil
    · rw [List.mem_singleton.1 hx]
      exact hgiven.concludes rfl
    · rcases List.mem_cons.1 hx with rfl | hx
      · exact .ok trivial
      · exact ih hafter x hx

theorem ReadsFrom.all_concludes (h : r.ReadsFrom c m?) (hc : c.Answers statement own) :
    Concludes (c.Blames statement own m?) (fun _ => True) r.all :=
  (Concludes.mapM (h.take_concludes hc r.bound)).imp fun _ _ => trivial

/-- The number at the start of a row is missing, or the row is not given. -/
theorem ReadsFrom.firstNumber_concludes {r : Rows Row} (h : r.ReadsFrom c m?)
    (hc : c.Answers statement own) :
    Concludes (c.Blames statement own m?) (fun _ => True) (Session.firstNumber statement r) := by
  have hfirst : Concludes (c.Blames statement own m?) (fun _ => True) r.first := by
    have hnext := (h.next hc).1
    unfold first
    rcases hgiven : r.next.1 with _ | (e | row)
    · exact .ok trivial
    · exact .error ((hnext.concludes hgiven).of_eq_error rfl)
    · exact .ok trivial
  refine hfirst.bind fun row _ => ?_
  cases row with
  | none => exact .error (.traced (.answer _ _ rfl))
  | some row =>
    dsimp only
    split
    · exact .ok trivial
    · exact .error (.traced (.answer _ _ rfl))

/-- Plain rows are made of rows with the types of the header. -/
theorem readsFrom_plain (hc : c.Answers statement own) (n : Nat) :
    (plain (afterCalls Cursor.next n c)).ReadsFrom c none where
  decode := by
    intro header hheader cells
    unfold plain
    rw [(hc.after n).2, hheader]
    exact header.row_concludes cells
  cursor := by
    rintro c' ⟨⟩
    exact ⟨n, rfl⟩

/-- Records are made of rows with the fields of the columns, or there is a column without a
    field. -/
theorem records_concludes (m : Model) (hc : c.Answers statement own) (n : Nat) :
    Concludes (Traced statement own) (ReadsFrom c (some m))
      (records m (afterCalls Cursor.next n c)) := by
  have hplaces := @Places.ofHeader_concludes own m
    ((afterCalls Cursor.next n c).header.getD Header.empty)
  unfold records
  rw [(hc.after n).1.statement_eq]
  refine (hplaces.mapError fun _ he => he statement).bind ?_
  rintro _ ⟨fields, rfl, hfields⟩
  rw [(hc.after n).2] at hfields
  refine .ok ⟨?_, ?_⟩
  · intro header hheader cells
    rw [hheader] at hfields
    exact Places.record_concludes hfields cells
  · rintro c' ⟨⟩
    exact ⟨n, rfl⟩

end Rows

/-! ## Failures -/

namespace Arrival

/-- What can fail while the answer to a statement is read: the cells are those of plain rows, or
    of the records of a model. Rows may have been given before something is made of the others. -/
inductive Fails (a : Arrival) (s : Statement) : Option Model → Failure → Prop
  /-- No cursor is opened. -/
  | opening {m? : Option Model} {e : Failure} (h : a.cursor s = .error e) : Fails a s m? e
  /-- A row is not given. -/
  | row {m? : Option Model} {c : Cursor} {n : Nat} {e : Failure} (hc : a.cursor s = .ok c)
      (h : (afterCalls Cursor.next n c).next.1 = some (.error e)) : Fails a s m? e
  /-- What is left is not given as a text. -/
  | text {m? : Option Model} {c : Cursor} {n : Nat} {e : Failure} (hc : a.cursor s = .ok c)
      (h : (afterCalls Cursor.next n c).text = .error e) : Fails a s m? e
  /-- The columns are not those of the model. -/
  | columns {m : Model} {c : Cursor} {n : Nat} {e : Failure} (hc : a.cursor s = .ok c)
      (h : Rows.records m (afterCalls Cursor.next n c) = .error e) : Fails a s (some m) e
  /-- A record is not given. -/
  | record {m : Model} {c : Cursor} {n k : Nat} {r : Rows Record} {e : Failure}
      (hc : a.cursor s = .ok c) (hr : Rows.records m (afterCalls Cursor.next n c) = .ok r)
      (h : (afterCalls Rows.next k r).next.1 = some (.error e)) : Fails a s (some m) e
  /-- Not all of the records that are left are given. -/
  | allRecords {m : Model} {c : Cursor} {n k : Nat} {r : Rows Record} {e : Failure}
      (hc : a.cursor s = .ok c) (hr : Rows.records m (afterCalls Cursor.next n c) = .ok r)
      (h : (afterCalls Rows.next k r).all = .error e) : Fails a s (some m) e
  /-- A plain row is not given. -/
  | plain {c : Cursor} {n k : Nat} {e : Failure} (hc : a.cursor s = .ok c)
      (h : (afterCalls Rows.next k (Rows.plain (afterCalls Cursor.next n c))).next.1 =
        some (.error e)) : Fails a s none e
  /-- Not all of the plain rows that are left are given. -/
  | allPlain {c : Cursor} {n k : Nat} {e : Failure} (hc : a.cursor s = .ok c)
      (h : (afterCalls Rows.next k (Rows.plain (afterCalls Cursor.next n c))).all = .error e) :
      Fails a s none e
  /-- The number that answers a question is not given. -/
  | number {c : Cursor} {n : Nat} {e : Failure} (hc : a.cursor s = .ok c)
      (h : Session.firstNumber s.text (Rows.plain (afterCalls Cursor.next n c)) = .error e) :
      Fails a s none e

variable {a : Arrival} {s : Statement} {e : Failure}

/-- A failure says which statement was answered. Once a cursor is opened, it is one of the cursor
    or of a cell that the cursor gives. -/
theorem Fails.blames (h : a.Fails s m? e) :
    e.Traced s.text a.break? ∨ ∃ c, a.cursor s = .ok c ∧ c.Blames s.text a.break? m? e := by
  have hcursor := a.cursor_concludes s
  cases h with
  | opening h => exact .inl (hcursor.of_eq_error h)
  | row hc h =>
    have hanswers := hcursor.of_eq_ok hc
    exact .inl (((hanswers.after _).1.next.1.concludes h).of_eq_error rfl)
  | text hc h =>
    have hanswers := hcursor.of_eq_ok hc
    exact .inl ((hanswers.after _).1.text_concludes.of_eq_error h)
  | columns hc h =>
    have hanswers := hcursor.of_eq_ok hc
    exact .inl ((Rows.records_concludes _ hanswers _).of_eq_error h)
  | record hc hr h =>
    have hanswers := hcursor.of_eq_ok hc
    have hreads := (Rows.records_concludes _ hanswers _).of_eq_ok hr
    exact .inr ⟨_, hc, (((hreads.after hanswers _).next hanswers).1.concludes h).of_eq_error rfl⟩
  | allRecords hc hr h =>
    have hanswers := hcursor.of_eq_ok hc
    have hreads := (Rows.records_concludes _ hanswers _).of_eq_ok hr
    exact .inr ⟨_, hc, ((hreads.after hanswers _).all_concludes hanswers).of_eq_error h⟩
  | @plain c n k _ hc h =>
    have hanswers := hcursor.of_eq_ok hc
    have hreads := Rows.readsFrom_plain hanswers n
    exact .inr ⟨_, hc, (((hreads.after hanswers k).next hanswers).1.concludes h).of_eq_error rfl⟩
  | @allPlain c n k _ hc h =>
    have hanswers := hcursor.of_eq_ok hc
    have hreads := Rows.readsFrom_plain hanswers n
    exact .inr ⟨_, hc, ((hreads.after hanswers k).all_concludes hanswers).of_eq_error h⟩
  | number hc h =>
    have hanswers := hcursor.of_eq_ok hc
    exact .inr ⟨_, hc, ((Rows.readsFrom_plain hanswers _).firstNumber_concludes hanswers).of_eq_error h⟩

/-- Whatever fails while the answer to a statement is read, the failure names a statement: the
    one that is read, unless the stream has broken off with a failure that names one itself. It
    is a failure of the server, of the connection or of understanding. If it is for a cell, it
    names the column in which a cell stands that cannot be read. -/
theorem statement_of_fails (h : a.Fails s m? e) :
    (e.statement? = some s.text ∨
        ∃ k named, a.break? = some k ∧ k.named = some named ∧ e = k.failure) ∧
      e.concernsAnswer = true ∧
      ∀ column value error named, e = .decode column value (.cell error) named →
        ∃ c, a.cursor s = .ok c ∧ c.Refuses m? column value error := by
  have hblames : (e.Traced s.text a.break?) ∨ ∃ c column value error, a.cursor s = .ok c ∧
      c.Refuses m? column value error ∧ e = .decode column value (.cell error) (some s.text) := by
    rcases h.blames with h | ⟨c, hc, h | hrefused⟩
    · exact .inl h
    · exact .inl h
    · exact .inr ⟨c, _, _, _, hc, hrefused, rfl⟩
  rcases hblames with h | ⟨c, column, value, error, hc, hrefused, rfl⟩
  · rcases h.names with ⟨hstatement, hkind, hcell⟩
    refine ⟨hstatement, hkind, ?_⟩
    rintro column value error named rfl
    cases hcell
  · refine ⟨.inl rfl, rfl, ?_⟩
    rintro column value error named ⟨⟩
    exact ⟨c, hc, hrefused⟩

/-- Guests, whose ages are stored in a column of another name. -/
def guests : Model :=
  ⟨"guests", [{ name := "name", type := .string },
    { name := "age", type := .word ⟨false, .w8⟩, stored := some "years" }], none, false, rfl⟩

/-- The names and ages of guests, cut inside a word. One of the ages is no number. -/
def guestList : Arrival :=
  .response .streaming (.answer [Wire.encode "years\tname\nUInt8\tStr".toList,
    Wire.encode "ing\n36\tAda\nold\tBob\n".toList])

/-- The failure to read that age. -/
def guestFailure : Failure :=
  .decode "years" (some "old") (.cell (.unreadable (.word ⟨false, .w8⟩) "old"))
    (some "SELECT years, name FROM guests")

/-- The second guest is not read, and the failure names the statement and the column. -/
theorem fails_guestList :
    guestList.Fails ⟨"SELECT years, name FROM guests", true⟩ (some guests) guestFailure ∧
      guestFailure.statement? = some "SELECT years, name FROM guests" ∧
      ∃ c, guestList.cursor ⟨"SELECT years, name FROM guests", true⟩ = .ok c ∧
        c.Refuses (some guests) "years" (some "old") (.unreadable (.word ⟨false, .w8⟩) "old") := by
  have hfails : guestList.Fails ⟨"SELECT years, name FROM guests", true⟩ (some guests)
      guestFailure := @Fails.record _ _ guests _ 0 1 _ _ rfl rfl rfl
  rcases statement_of_fails hfails with ⟨-, -, hcell⟩
  exact ⟨hfails, rfl, hcell _ _ _ _ rfl⟩

end Arrival

end ColumnStore
