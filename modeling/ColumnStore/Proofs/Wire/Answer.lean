import ColumnStore.Proofs.Wire.Calls
import ColumnStore.Proofs.Wire.Lines
import ColumnStore.Wire.Cursor

/-!
# Answers

What an answer says depends on its bytes alone. They are cut into lines; the
first two are the header, and each of the others is a row, up to the first one
that cannot be read. This is said here without buffers, chunks or cursors, and a
cursor gives just that: the same failure when it is opened or the same header,
then the same rows, the same first failure, and nothing after it.

## Main definitions

* `lineTexts`: The lines of some bytes as texts.
* `Answer`: A header and the rows below it.
* `Answer.read`: The answer that some bytes are.
* `Cursor.remaining`: The rows that a cursor has not given yet.
* `Cursor.OpensAt`: A cursor is opened at an answer.

## Theorems

* `Cursor.takeLine_of_nil`, `Cursor.takeLine_of_cons`: A cursor takes the lines
  in order.
* `Cursor.next_remaining`: A cursor gives the first row that remains.
* `Cursor.yields_remaining`: It gives all of them, and nothing more.
* `Cursor.opensAt_read`: A cursor is opened at the answer that its bytes are.
* `Cursor.opens_of_read`, `Cursor.refused_of_read`: The two ways in which that ends.
-/

namespace ColumnStore

open Wire

/-- The lines of some bytes as texts. A line that is not a text is a failure, which
    names the statement. -/
def lineTexts (statement : String) (bytes : Bytes) : List (Except Failure (List Char)) :=
  (lines bytes).map fun line => (Body.readLine line).mapError (·.withStatement statement)

/-- The rows of some lines, up to the first one that cannot be read. -/
def rowsOf (statement : String) (header : Header) (texts : List (Except Failure (List Char))) :
    List (Except Failure Cells) :=
  upToFailure (texts.map (·.bind (header.cells statement)))

/-- The first line is a row, and the others follow, or it is the failure that ends them. -/
theorem rowsOf_cons (statement : String) (header : Header) (line : Except Failure (List Char))
    (texts : List (Except Failure (List Char))) :
    rowsOf statement header (line :: texts) = match line.bind (header.cells statement) with
      | .error e => [.error e]
      | .ok cells => .ok cells :: rowsOf statement header texts := by
  rw [rowsOf, List.map_cons]
  cases line.bind (header.cells statement) with
  | error e => rfl
  | ok cells => rfl

/-- Lines that are rows come first among the rows. -/
theorem rowsOf_append {statement : String} {header : Header} {texts : List (List Char)}
    {rows : List Cells}
    (h : List.Forall₂ (fun text cells => header.cells statement text = .ok cells) texts rows)
    (rest : List (Except Failure (List Char))) :
    rowsOf statement header (texts.map .ok ++ rest) =
      rows.map .ok ++ rowsOf statement header rest := by
  induction h with
  | nil => rfl
  | cons hcells _ ih =>
    rw [List.map_cons, List.cons_append, rowsOf_cons, Except.bind, hcells, ih]
    rfl

/-- An answer to a statement. -/
structure Answer where
  /-- The statement. -/
  statement : String
  /-- The header. -/
  header : Header
  /-- The rows up to the first failure. -/
  rows : List (Except Failure Cells)

namespace Answer

/-- The answer that some lines are. Without lines it has no columns and no rows,
    and a line of names needs a line of types. -/
def ofTexts (statement : String) : List (Except Failure (List Char)) → Except Failure Answer
  | [] => .ok ⟨statement, Header.empty, []⟩
  | [nameLine] => do
    let _ ← nameLine
    throw (.decode "<header>" none .noTypes (some statement))
  | nameLine :: typeLine :: texts => do
    let header ← Header.read statement (← nameLine) (← typeLine)
    pure ⟨statement, header, rowsOf statement header texts⟩

/-- The answer that some bytes are. -/
def read (statement : String) (bytes : Bytes) : Except Failure Answer :=
  ofTexts statement (lineTexts statement bytes)

/-- Below two lines that can be read an answer hangs on the header that they are. -/
theorem ofTexts_two (statement : String) (names types : List Char)
    (texts : List (Except Failure (List Char))) :
    ofTexts statement (.ok names :: .ok types :: texts) =
      (Header.read statement names types).map fun header =>
        ⟨statement, header, rowsOf statement header texts⟩ := by
  simp only [ofTexts, bind, Except.bind]
  cases Header.read statement names types with
  | error e => rfl
  | ok header => rfl

end Answer

theorem eq_nil_of_lineTexts {statement : String} {bytes : Bytes}
    (h : lineTexts statement bytes = []) : bytes = [] := by
  by_contra hne
  rw [lineTexts, lines_of_ne_nil hne, List.map_cons] at h
  cases h

namespace Cursor

variable {statement : String} {b : Body}

/-- A body without lines has no next one. -/
theorem takeLine_of_nil (hb : b.Unbroken) (h : lineTexts statement b.rest = []) :
    ∃ after, takeLine statement b = (.ok none, after) ∧ after.Unbroken ∧
      lineTexts statement after.rest = [] := by
  rcases Body.nextLine_of_rest_nil hb (eq_nil_of_lineTexts h) with ⟨after, hnext, hafter, hrest⟩
  refine ⟨after, ?_, hafter, ?_⟩
  · simp only [takeLine, hnext]
    rfl
  · rw [hrest, lineTexts, lines_nil, List.map_nil]

/-- The next line is the first one, and the others are left. -/
theorem takeLine_of_cons {line : Except Failure (List Char)}
    {texts : List (Except Failure (List Char))} (hb : b.Unbroken)
    (h : lineTexts statement b.rest = line :: texts) :
    ∃ after, takeLine statement b = (line.map some, after) ∧ after.Unbroken ∧
      lineTexts statement after.rest = texts := by
  have hne : b.rest ≠ [] := by
    intro he
    rw [he, lineTexts, lines_nil, List.map_nil] at h
    cases h
  rw [lineTexts, lines_of_ne_nil hne, List.map_cons, List.cons.injEq] at h
  rcases Body.nextLine_of_rest_ne_nil hb hne with ⟨after, hnext, hafter, hrest⟩
  refine ⟨after, ?_, hafter, ?_⟩
  · simp only [takeLine, hnext, ← h.1]
    cases Body.readLine (cutLine b.rest).1 with
    | error e => rfl
    | ok text => rfl
  · rw [hrest, lineTexts, h.2]

/-- The rows that a cursor has not given yet. -/
def remaining (c : Cursor) : List (Except Failure Cells) :=
  match c.header, c.isOpen with
  | some header, true => rowsOf c.statement header (lineTexts c.statement c.body.rest)
  | _, _ => []

/-- A cursor does not forget its statement. -/
@[simp]
theorem statement_next (c : Cursor) : c.next.2.statement = c.statement := by
  unfold next
  split
  · dsimp only
    split
    · rfl
    · rfl
    · split
      · rfl
      · rfl
  · rfl

/-- A line is given as a row, or closes the cursor as a failure. -/
theorem next_of_takeLine {header : Header} {line : Except Failure (List Char)} {after : Body}
    (h : takeLine statement b = (line.map some, after)) :
    next ⟨some header, b, statement, true⟩ = match line.bind (header.cells statement) with
      | .error e => (some (.error e), ⟨some header, after, statement, false⟩)
      | .ok cells => (some (.ok cells), ⟨some header, after, statement, true⟩) := by
  -- The line may not be a text, and its text may not be a row.
  cases line with
  | error e =>
    simp only [next, h]
    rfl
  | ok text =>
    simp only [next, h, Except.map, Except.bind]
    cases header.cells statement text with
    | error e => rfl
    | ok cells => rfl

/-- A call gives the first row that remains, and the others remain after it. A
    failure is the last row that remains. -/
theorem next_remaining {c : Cursor} (hc : c.body.Unbroken) :
    c.next.1 = c.remaining.head? ∧ c.next.2.body.Unbroken ∧
      c.next.2.remaining = c.remaining.tail := by
  rcases c with ⟨header, body, statement, isOpen⟩
  cases header with
  | none => exact ⟨rfl, hc, rfl⟩
  | some header =>
    cases isOpen with
    | false => exact ⟨rfl, hc, rfl⟩
    | true =>
      cases hl : lineTexts statement body.rest with
      | nil =>
        -- At the end the cursor closes itself.
        rcases takeLine_of_nil hc hl with ⟨after, htake, hafter, -⟩
        simp only [next, htake, remaining, hl]
        exact ⟨rfl, hafter, rfl⟩
      | cons line texts =>
        rcases takeLine_of_cons hc hl with ⟨after, htake, hafter, hrest⟩
        rw [next_of_takeLine htake]
        simp only [remaining, hl, rowsOf_cons]
        cases line.bind (header.cells statement) with
        | error e => exact ⟨rfl, hafter, rfl⟩
        | ok cells =>
          refine ⟨rfl, hafter, ?_⟩
          simp only [hrest, List.tail_cons]

/-- A cursor gives the rows that remain, up to the first failure, and nothing more. -/
theorem yields_remaining {c : Cursor} (hc : c.body.Unbroken) :
    Yields Cursor.next c c.remaining :=
  yields_of_step (fun c => c.body.Unbroken) remaining (fun _ h => next_remaining h) hc

/-- A cursor for a question is opened with the header and the rows of an answer, or
    is refused with its failure. -/
def OpensAt (text : String) (b : Body) : Except Failure Answer → Prop
  | .error e => start ⟨text, true⟩ b = .error e
  | .ok a => ∃ c, start ⟨text, true⟩ b = .ok c ∧ c.body.Unbroken ∧
      c.header = some a.header ∧ c.statement = a.statement ∧ c.remaining = a.rows

/-- Without lines a cursor has no columns and no rows. -/
theorem opensAt_of_nil (hb : b.Unbroken) (h : lineTexts statement b.rest = []) :
    OpensAt statement b (Answer.ofTexts statement []) := by
  rcases takeLine_of_nil hb h with ⟨after, htake, hafter, hrest⟩
  refine ⟨⟨some Header.empty, after, statement, true⟩, ?_, hafter, rfl, rfl, ?_⟩
  · simp only [start, readHeader, htake]
    rfl
  · simp only [remaining, hrest]
    rfl

/-- A cursor whose first line cannot be read is refused. -/
theorem start_of_takeLine_error {e : Failure} {after : Body}
    (h : takeLine statement b = (.error e, after)) : start ⟨statement, true⟩ b = .error e := by
  simp only [start, readHeader, h]
  rfl

/-- A cursor that has two lines is opened with the header that they are, or is refused as
    the header is. -/
theorem start_of_takeLine {names : List Char} {line : Except Failure (List Char)}
    {after last : Body} (hnames : takeLine statement b = (.ok (some names), after))
    (htypes : takeLine statement after = (line.map some, last)) :
    start ⟨statement, true⟩ b = (line.bind (Header.read statement names)).map fun header =>
      ⟨some header, last, statement, true⟩ := by
  simp only [start, readHeader, hnames, htypes, if_true, bind, Except.bind]
  cases line with
  | error e => rfl
  | ok types =>
    simp only [Except.map]
    cases Header.read statement names types with
    | error e => rfl
    | ok header => rfl

/-- A cursor whose first line cannot be read is refused, whatever follows. -/
theorem start_of_error {e : Failure} {texts : List (Except Failure (List Char))}
    (hb : b.Unbroken) (h : lineTexts statement b.rest = .error e :: texts) :
    start ⟨statement, true⟩ b = .error e := by
  rcases takeLine_of_cons hb h with ⟨after, htake, -, -⟩
  exact start_of_takeLine_error htake

/-- Without a line of types a cursor is refused. -/
theorem opensAt_of_one {nameLine : Except Failure (List Char)} (hb : b.Unbroken)
    (h : lineTexts statement b.rest = [nameLine]) :
    OpensAt statement b (Answer.ofTexts statement [nameLine]) := by
  cases nameLine with
  | error e => exact start_of_error hb h
  | ok names =>
    -- The second line is looked for where the first one ended, and is not there.
    rcases takeLine_of_cons hb h with ⟨after, htake, hafter, hrest⟩
    rcases takeLine_of_nil hafter hrest with ⟨last, htake', -, -⟩
    show start ⟨statement, true⟩ b = _
    simp only [start, readHeader, htake, Except.map, htake']
    rfl

/-- With a line of names and a line of types a cursor has what they say, if they
    can be read, and the rows below them. -/
theorem opensAt_of_two {nameLine typeLine : Except Failure (List Char)}
    {texts : List (Except Failure (List Char))} (hb : b.Unbroken)
    (h : lineTexts statement b.rest = nameLine :: typeLine :: texts) :
    OpensAt statement b (Answer.ofTexts statement (nameLine :: typeLine :: texts)) := by
  cases nameLine with
  | error e => exact start_of_error hb h
  | ok names =>
    rcases takeLine_of_cons hb h with ⟨after, htake, hafter, hrest⟩
    rcases takeLine_of_cons hafter hrest with ⟨last, htake', hlast, hrest'⟩
    have hstart := start_of_takeLine htake htake'
    cases typeLine with
    | error e => exact hstart
    | ok types =>
      -- Opening and the answer both hang on the header of the two lines.
      rw [Answer.ofTexts_two]
      rw [Except.bind] at hstart
      cases hheader : Header.read statement names types with
      | error e =>
        rw [hheader] at hstart
        exact hstart
      | ok header =>
        rw [hheader] at hstart
        refine ⟨⟨some header, last, statement, true⟩, hstart, hlast, rfl, rfl, ?_⟩
        simp only [remaining, hrest']

/-- A cursor is opened at the answer that its bytes are. -/
theorem opensAt_read (hb : b.Unbroken) : OpensAt statement b (Answer.read statement b.rest) := by
  unfold Answer.read
  cases h : lineTexts statement b.rest with
  | nil => exact opensAt_of_nil hb h
  | cons nameLine texts =>
    cases texts with
    | nil => exact opensAt_of_one hb h
    | cons typeLine texts => exact opensAt_of_two hb h

/-- A response that is an answer opens a cursor, which gives the header and the rows. -/
theorem opens_of_read {a : Answer} (mode : Mode) {chunks : List Bytes}
    (h : Answer.read statement chunks.flatten = .ok a) :
    ∃ c, start ⟨statement, true⟩ (Body.ofChunks mode chunks) = .ok c ∧
      c.header = some a.header ∧ Yields Cursor.next c a.rows := by
  have hopens : OpensAt statement _ _ := opensAt_read (Body.unbroken_ofChunks mode chunks)
  rw [Body.rest_ofChunks, h] at hopens
  rcases hopens with ⟨c, hstart, hbody, hheader, -, hrows⟩
  refine ⟨c, hstart, hheader, ?_⟩
  rw [← hrows]
  exact yields_remaining hbody

/-- A response that is no answer opens none. -/
theorem refused_of_read {e : Failure} (mode : Mode) {chunks : List Bytes}
    (h : Answer.read statement chunks.flatten = .error e) :
    start ⟨statement, true⟩ (Body.ofChunks mode chunks) = .error e := by
  have hopens : OpensAt statement _ _ := opensAt_read (Body.unbroken_ofChunks mode chunks)
  rw [Body.rest_ofChunks, h] at hopens
  exact hopens

end Cursor

end ColumnStore
