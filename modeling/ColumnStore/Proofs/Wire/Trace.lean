import ColumnStore.Proofs.Except.Basic
import ColumnStore.Proofs.Wire.Calls
import ColumnStore.Session.Exchange

/-!
# Failures of Cursors

Whatever goes wrong while an answer is read, the failure says which statement was answered. It
comes up in many places: where a response is refused, in a line that is no text, in a stream
that breaks off, in the two lines of a header, in a row. Some of these know the statement, the
others do not, and then it is added before the failure leaves the cursor. A stream that breaks
off may have named a statement itself; that one stays.

Two things are kept along the way and carry the proofs. A body breaks off as its stream does or
not at all, however many lines are taken from it; and a cursor keeps its statement and its
header.

## Main definitions

* `Break`: How a stream breaks off.
* `Failure.Traced`: A failure that says which statement was answered.
* `Failure.Traceable`: A failure that does so once the statement is added.
* `Failure.concernsAnswer`: A failure that is no refusal of what was asked for.
* `Body.BreaksOnlyAs`: A body that breaks off in one way at most.
* `Offers`: What is known of what a call gives.
* `Cursor.Answers`: A cursor at the answer to a statement.
* `Arrival`, `Arrival.cursor`: What arrives for a statement, and a cursor at its first row.

## Theorems

* `Body.nextLine_concludes`, `Body.text_concludes`: Lines and texts of a body.
* `Header.read_concludes`, `Header.cells_concludes`: Headers and rows.
* `Cursor.start_concludes`, `Arrival.cursor_concludes`: Opening a cursor.
* `Cursor.Answers.next`, `Cursor.Answers.after`: Reading rows.
* `Cursor.Answers.text_concludes`: Reading a text.
-/

namespace ColumnStore

/-- How a stream breaks off: why, and the statement that it names itself if it names one. -/
structure Break where
  /-- Why nothing more comes. -/
  fault : LinkFault
  /-- The statement. -/
  named : Option String

/-- The failure of a stream that breaks off. -/
def Break.failure (k : Break) : Failure :=
  .transport k.fault k.named

/-- The refusal of a cell, if this is one. -/
def DecodeFault.refusal? : DecodeFault → Option CodecError
  | cell error => some error
  | _ => none

/-- The refusal of a cell that a failure is for, if it is for one. -/
def Failure.refusal? : Failure → Option CodecError
  | decode _ _ fault _ => fault.refusal?
  | _ => none

/-- A failure that says which statement was answered. Refused cells are left out here. -/
inductive Failure.Traced (statement : String) (own : Option Break) : Failure → Prop
  /-- The server has refused the statement. -/
  | server (code : UInt32) (message : String) :
      Traced statement own (.server code message statement)
  /-- There is no usable response to the statement. -/
  | response (fault : LinkFault) : Traced statement own (.transport fault (some statement))
  /-- The stream has named a statement itself. -/
  | stream {fault : LinkFault} {named : String} (h : own = some ⟨fault, some named⟩) :
      Traced statement own (.transport fault (some named))
  /-- The answer to the statement is not understood. -/
  | answer (column : String) (value : Option String) {fault : DecodeFault}
      (h : fault.refusal? = none) :
      Traced statement own (.decode column value fault (some statement))

/-- Whether a failure is one of the server, of the connection or of understanding, and not a
    refusal of what was asked for. -/
def Failure.concernsAnswer : Failure → Bool
  | build _ | settings _ => false
  | server _ _ _ | transport _ _ | decode _ _ _ _ => true

/-- A failure that says which statement was answered once the statement is added. -/
def Failure.Traceable (own : Option Break) (e : Failure) : Prop :=
  ∀ statement, (e.withStatement statement).Traced statement own

open Failure (Traced Traceable)

variable {own : Option Break} {statement : String}

theorem Failure.Traced.names {e : Failure} (h : e.Traced statement own) :
    (e.statement? = some statement ∨
        ∃ k named, own = some k ∧ k.named = some named ∧ e = k.failure) ∧
      e.concernsAnswer = true ∧ e.refusal? = none := by
  cases h with
  | server code message => exact ⟨.inl rfl, rfl, rfl⟩
  | response fault => exact ⟨.inl rfl, rfl, rfl⟩
  | stream h => exact ⟨.inr ⟨_, _, h, rfl, rfl⟩, rfl, rfl⟩
  | answer column value h => exact ⟨.inl rfl, rfl, h⟩

/-- The failure of a stream keeps the statement that it names. -/
theorem Break.traceable {k : Break} (h : own = some k) : Traceable own k.failure := by
  intro statement
  rcases k with ⟨fault, named⟩
  cases named with
  | none => exact .response fault
  | some named => exact .stream h

/-! ## Bodies -/

namespace Body

/-- A body breaks off in one way at most. -/
def BreaksOnlyAs (own : Option Break) : Body → Prop
  | whole _ => True
  | arriving _ _ broken => broken = none ∨ ∃ k, own = some k ∧ broken = some k.failure

theorem breaksOnlyAs_ofChunks (mode : Mode) (chunks : List Bytes) :
    (ofChunks mode chunks).BreaksOnlyAs own := by
  cases mode with
  | blocking => trivial
  | streaming => exact .inl rfl

theorem breaksOnlyAs_stream (chunks : List Bytes) (k : Break) :
    (stream [] chunks (some k.failure)).BreaksOnlyAs (some k) :=
  .inr ⟨k, rfl, rfl⟩

theorem readLine_concludes (line : Bytes) :
    Concludes (Traceable own) (fun _ => True) (readLine line) := by
  unfold readLine
  cases Wire.lineText? line with
  | some text => exact .ok trivial
  | none => exact .error fun _ => .response .notText

/-- A line is no text, or the stream has broken off. What is left breaks off in the same way, if
    it does. -/
theorem nextLine_concludes {b : Body} (hb : b.BreaksOnlyAs own) :
    Concludes (Traceable own) (fun _ => True) b.nextLine.1 ∧ b.nextLine.2.BreaksOnlyAs own := by
  have hline (line : Bytes) :
      Concludes (Traceable own) (fun _ => True) ((readLine line).map some) :=
    (readLine_concludes line).map fun _ _ => trivial
  cases b with
  | whole rest =>
    cases rest with
    | nil => exact ⟨.ok trivial, trivial⟩
    | cons byte rest => exact ⟨hline _, trivial⟩
  | arriving buffer chunks broken =>
    rcases hrefill : refill buffer chunks with ⟨line, after, left⟩
    simp only [nextLine, hrefill]
    cases line with
    | some line => exact ⟨hline line, hb⟩
    | none =>
      rcases hb with rfl | ⟨k, hk, rfl⟩
      · dsimp only
        split
        · exact ⟨.ok trivial, .inl rfl⟩
        · exact ⟨hline _, .inl rfl⟩
      · -- The failure of the stream ends the body.
        exact ⟨.error (k.traceable hk), .inl rfl⟩

theorem remainingLines_concludes (n : Nat) {b : Body} (hb : b.BreaksOnlyAs own) :
    Concludes (Traceable own) (fun _ => True) (b.remainingLines n) := by
  induction n generalizing b with
  | zero => exact .ok trivial
  | succ n ih =>
    rcases nextLine_concludes hb with ⟨hline, hafter⟩
    rcases hnext : b.nextLine with ⟨line, after⟩
    rw [hnext] at hline hafter
    simp only [remainingLines, hnext]
    cases line with
    | error e => exact .error (hline.of_eq_error rfl)
    | ok line =>
      cases line with
      | none => exact .ok trivial
      | some line => exact (ih hafter).map fun _ _ => trivial

/-- A text fails as one of its lines does. -/
theorem text_concludes {b : Body} (hb : b.BreaksOnlyAs own) :
    Concludes (Traceable own) (fun _ => True) b.text := by
  cases b with
  | whole rest =>
    simp only [text]
    cases Wire.text? rest with
    | some text => exact .ok trivial
    | none => exact .error fun _ => .response .unreadableBody
  | arriving buffer chunks broken =>
    exact (remainingLines_concludes _ hb).map fun _ _ => trivial

end Body

/-! ## Headers and rows -/

namespace Wire

/-- A line that stands for a failure stands for one of the server. -/
theorem traced_of_exceptionLine? {line : List Char} {e : Failure}
    (h : exceptionLine? statement line = some e) : e.Traced statement own := by
  unfold exceptionLine? at h
  split at h
  · rcases Option.map_eq_some_iff.1 h with ⟨⟨code, message⟩, -, rfl⟩
    exact .server code _
  · cases h

/-- A refused request stands for a failure of the server, or for a missing response. -/
theorem traced_classify (status : UInt16) (code : Option String) (body : String) :
    (classify status code body statement).Traced statement own := by
  unfold classify
  dsimp only
  split
  · exact .server _ _
  · exact .server _ _
  · exact .server _ _
  · exact .response _

end Wire

namespace Header

theorem read_concludes (nameLine typeLine : List Char) :
    Concludes (Traced statement own) (fun _ => True) (Header.read statement nameLine typeLine) := by
  cases hnames : Wire.exceptionLine? statement nameLine with
  | some e =>
    rw [read_of_exception hnames]
    exact .error (Wire.traced_of_exceptionLine? hnames)
  | none =>
    cases htypes : Wire.exceptionLine? statement typeLine with
    | some e =>
      rw [read_of_typeException hnames htypes]
      exact .error (Wire.traced_of_exceptionLine? htypes)
    | none =>
      simp only [read, hnames, htypes]
      split
      · exact .ok trivial
      · exact .error (.answer _ _ rfl)

/-- A line is no row if it stands for a failure of the server, or if it has the wrong width. -/
theorem cells_concludes (h : Header) (line : List Char) :
    Concludes (Traced statement own) (fun _ => True) (h.cells statement line) := by
  by_cases hrow : (Text.readCells line).length = h.width ∧
      (h.width = 1 → Wire.exceptionLine? statement line = none)
  · rw [cells_of_length hrow.1 hrow.2]
    exact .ok trivial
  · cases hline : Wire.exceptionLine? statement line with
    | some e =>
      have hlooks : (Text.readCells line).length ≠ h.width ∨ h.width = 1 := by
        by_contra hno
        rw [not_or, not_not] at hno
        exact hrow ⟨hno.1, fun hone => absurd hone hno.2⟩
      rw [cells_of_exception hline hlooks]
      exact .error (Wire.traced_of_exceptionLine? hline)
    | none =>
      have hlength : (Text.readCells line).length ≠ h.width :=
        fun heq => hrow ⟨heq, fun _ => hline⟩
      simp only [cells, hline, if_neg hlength]
      split
      · exact .error (.answer _ _ rfl)
      · exact .error (.answer _ _ rfl)

end Header

/-! ## Cursors -/

/-- What is known of what a call gives, if it gives something. -/
inductive Offers {ε α : Type} (P : ε → Prop) (Q : α → Prop) : Option (Except ε α) → Prop
  /-- There is nothing more. -/
  | nothing : Offers P Q none
  /-- There is a result, or a failure. -/
  | something {x : Except ε α} (h : Concludes P Q x) : Offers P Q (some x)

theorem Offers.concludes {ε α : Type} {P : ε → Prop} {Q : α → Prop} {given : Option (Except ε α)}
    {x : Except ε α} (h : Offers P Q given) (hx : given = some x) : Concludes P Q x := by
  cases h with
  | nothing => cases hx
  | something h =>
    cases hx
    exact h

namespace Cursor

theorem takeLine_concludes (statement : String) {b : Body} (hb : b.BreaksOnlyAs own) :
    Concludes (Traced statement own) (fun _ => True) (takeLine statement b).1 ∧
      (takeLine statement b).2.BreaksOnlyAs own := by
  rcases Body.nextLine_concludes hb with ⟨hline, hafter⟩
  exact ⟨hline.mapError fun _ h => h statement, hafter⟩

/-- What follows the header breaks off as the stream does, if at all. -/
theorem readHeader_concludes {b : Body} (hb : b.BreaksOnlyAs own) :
    Concludes (Traced statement own) (fun p => p.2.BreaksOnlyAs own) (readHeader statement b) := by
  rcases takeLine_concludes statement hb with ⟨hnames, hafter⟩
  refine hnames.bind fun names _ => ?_
  cases names with
  | none => exact .ok hafter
  | some names =>
    rcases takeLine_concludes statement hafter with ⟨htypes, hlast⟩
    refine htypes.bind fun types _ => ?_
    cases types with
    | none => exact .error (.answer _ _ rfl)
    | some types => exact (Header.read_concludes names types).bind fun _ _ => .ok hlast

/-- A cursor at the answer to a statement: it knows the statement, and its body breaks off as
    the stream does, if at all. -/
structure Answers (statement : String) (own : Option Break) (c : Cursor) : Prop where
  /-- The statement. -/
  statement_eq : c.statement = statement
  /-- The body. -/
  body : c.body.BreaksOnlyAs own

theorem start_concludes (s : Statement) {b : Body} (hb : b.BreaksOnlyAs own) :
    Concludes (Traced s.text own) (Answers s.text own) (start s b) := by
  unfold start
  cases s.returnsRows with
  | false => exact .ok ⟨rfl, hb⟩
  | true => exact (readHeader_concludes hb).bind fun _ hafter => .ok ⟨rfl, hafter⟩

namespace Answers

variable {c : Cursor}

/-- A call gives a row below a header, or a failure that says which statement was answered, or
    nothing. What is left is still the answer to the statement, below the same header. -/
theorem next (h : c.Answers statement own) :
    Offers (Traced statement own) (fun _ => c.header.isSome = true) c.next.1 ∧
      c.next.2.Answers statement own ∧ c.next.2.header = c.header := by
  rcases c with ⟨header, body, statement', isOpen⟩
  rcases h with ⟨rfl, hbody⟩
  cases header with
  | none => exact ⟨.nothing, ⟨rfl, hbody⟩, rfl⟩
  | some header =>
    cases isOpen with
    | false => exact ⟨.nothing, ⟨rfl, hbody⟩, rfl⟩
    | true =>
      dsimp only at hbody
      rcases takeLine_concludes statement' hbody with ⟨hline, hafter⟩
      rcases htake : takeLine statement' body with ⟨line, after⟩
      rw [htake] at hline hafter
      simp only [Cursor.next, htake]
      -- The line ends the rows, or is a row, or is a failure.
      cases line with
      | error e => exact ⟨.something (.error (hline.of_eq_error rfl)), ⟨rfl, hafter⟩, rfl⟩
      | ok line =>
        cases line with
        | none => exact ⟨.nothing, ⟨rfl, hafter⟩, rfl⟩
        | some line =>
          have hcells : Concludes (Traced statement' own) (fun _ => True)
              (header.cells statement' line) := header.cells_concludes line
          dsimp only
          cases hrow : header.cells statement' line with
          | error e =>
            exact ⟨.something (.error (hcells.of_eq_error hrow)), ⟨rfl, hafter⟩, rfl⟩
          | ok cells => exact ⟨.something (.ok rfl), ⟨rfl, hafter⟩, rfl⟩

/-- What is left after some calls is still the answer to the statement, below the same header. -/
theorem after (h : c.Answers statement own) (n : Nat) :
    (afterCalls Cursor.next n c).Answers statement own ∧
      (afterCalls Cursor.next n c).header = c.header :=
  sound_afterCalls (fun c' : Cursor => c'.Answers statement own ∧ c'.header = c.header)
    (fun _ h => ⟨h.1.next.2.1, h.1.next.2.2.trans h.2⟩) n ⟨h, rfl⟩

/-- All that is left as one text, or a failure that says which statement was answered. -/
theorem text_concludes (h : c.Answers statement own) :
    Concludes (Traced statement own) (fun _ => True) c.text := by
  unfold Cursor.text
  rw [h.statement_eq]
  exact (Body.text_concludes h.body).mapError fun _ he => he statement

end Answers

end Cursor

/-! ## What arrives -/

/-- What arrives for a statement. -/
inductive Arrival
  /-- A response that is read in one of two ways. -/
  | response (mode : Mode) (response : Response)
  /-- The chunks of a stream that breaks off after them. -/
  | broken (chunks : List Bytes) (k : Break)

namespace Arrival

/-- How the stream breaks off, if it does. -/
def break? : Arrival → Option Break
  | response _ _ => none
  | broken _ k => some k

/-- A cursor at the first row of what arrives. -/
def cursor (s : Statement) : Arrival → Except Failure Cursor
  | response mode r => r.cursor mode s
  | broken chunks k => Cursor.start s (Body.stream [] chunks (some k.failure))

/-- A cursor is opened at the answer to the statement, or it is refused with a failure that says
    which statement was answered. -/
theorem cursor_concludes (a : Arrival) (s : Statement) :
    Concludes (Traced s.text a.break?) (Cursor.Answers s.text a.break?) (a.cursor s) := by
  cases a with
  | response mode r =>
    cases r with
    | answer chunks => exact Cursor.start_concludes s (Body.breaksOnlyAs_ofChunks mode chunks)
    | refusal status code body => exact .error (Wire.traced_classify status code body)
    | nothing fault => exact .error (.response fault)
  | broken chunks k => exact Cursor.start_concludes s (Body.breaksOnlyAs_stream chunks k)

end Arrival

end ColumnStore
