import ColumnStore.Proofs.Wire.Answer
import ColumnStore.Result.Rows

/-!
# Reading Does Not Depend on Chunks

A response may be read as a whole or as it arrives, and it may arrive in any
chunks. What is read is the same: the answer that its bytes are. That holds for
the cells of the rows, for plain rows and for the records of a model, and for
every call, also those after a failure and after the end.

## Main definitions

* `Answer.decoded`: The rows of an answer, turned into something else.
* `Cursor.Gives`: What is read from a cursor is an answer.
* `Rows.remaining`: The results that are not given yet.

## Theorems

* `Rows.yields_remaining`: All of them are given, and nothing more.
* `Cursor.gives_of_remaining`: A cursor at the rows of an answer gives the answer.
* `Cursor.start_ofChunks`: Whatever the chunks are, the answer is that of the
  bytes.
-/

namespace ColumnStore

/-- Rows turned into something else, up to the first failure, which names the
    statement. -/
def decodeRows {α : Type} (statement : String) (decode : Cells → Except Failure α)
    (rows : List (Except Failure Cells)) : List (Except Failure α) :=
  upToFailure (rows.map (·.bind fun cells => (decode cells).mapError (·.withStatement statement)))

/-- The rows of an answer, turned into something else. -/
def Answer.decoded {α : Type} (a : Answer) (decode : Cells → Except Failure α) :
    List (Except Failure α) :=
  decodeRows a.statement decode a.rows

namespace Rows

variable {α : Type}

/-- The results that are not given yet. -/
def remaining (r : Rows α) : List (Except Failure α) :=
  match r.cursor with
  | none => []
  | some c => decodeRows c.statement r.decode c.remaining

/-- The response that results come from does not break off. -/
def Unbroken (r : Rows α) : Prop :=
  ∀ c ∈ r.cursor, c.body.Unbroken

/-- A call gives the first result that remains, and the others remain after it. A
    failure is the last one, whether it comes from the row or from turning it. -/
theorem next_remaining {r : Rows α} (hr : r.Unbroken) :
    r.next.1 = r.remaining.head? ∧ r.next.2.Unbroken ∧
      r.next.2.remaining = r.remaining.tail := by
  rcases r with ⟨cursor, decode⟩
  have hclosed : (⟨none, decode⟩ : Rows α).Unbroken := by
    intro c hc
    cases hc
  cases cursor with
  | none => exact ⟨rfl, hclosed, rfl⟩
  | some c =>
    have hstatement := Cursor.statement_next c
    rcases Cursor.next_remaining (hr c rfl) with ⟨hgiven, hbody, hleft⟩
    unfold next
    simp only [remaining]
    cases hn : c.next with
    | mk given after =>
      rw [hn] at hgiven hbody hleft hstatement
      simp only at hgiven hbody hleft hstatement
      -- What the cursor gives is the first of the rows that it has left.
      cases hrows : c.remaining with
      | nil =>
        rw [hrows] at hgiven
        subst hgiven
        exact ⟨rfl, hclosed, rfl⟩
      | cons row rows =>
        rw [hrows] at hgiven hleft
        subst hgiven
        -- A row may be a failure, or the record it is turned into may be one. Either
        -- closes the rows.
        cases row with
        | error e => exact ⟨rfl, hclosed, rfl⟩
        | ok cells =>
          have hdecoded : decodeRows c.statement decode (.ok cells :: rows) =
              upToFailure ((decode cells).mapError (·.withStatement c.statement) ::
                rows.map (·.bind fun cells =>
                  (decode cells).mapError (·.withStatement c.statement))) := rfl
          simp only [hdecoded, hstatement, List.head?_cons]
          cases decode cells with
          | error e => exact ⟨rfl, hclosed, rfl⟩
          | ok x =>
            refine ⟨rfl, ?_, ?_⟩
            · intro c' hc'
              rw [← Option.some.inj hc']
              exact hbody
            · simp only [hstatement, hleft]
              rfl

/-- All results that remain are given, up to the first failure, and nothing more. -/
theorem yields_remaining {r : Rows α} (hr : r.Unbroken) : Yields Rows.next r r.remaining :=
  yields_of_step Unbroken remaining (fun _ h => next_remaining h) hr

end Rows

/-- What is read from a cursor is an answer: its header, its rows, and what becomes
    of them as plain rows and as the records of any model. -/
structure Cursor.Gives (c : Cursor) (a : Answer) : Prop where
  /-- The header is the one of the answer. -/
  header : c.header = some a.header
  /-- The rows are the ones of the answer, and nothing comes after them. -/
  rows : Yields Cursor.next c a.rows
  /-- So are the plain rows. -/
  plain : Yields Rows.next (Rows.plain c) (a.decoded a.header.row)
  /-- So are the records, unless a column has no field in the model. -/
  records : ∀ m : Model, match Places.ofHeader m a.header with
    | .error e => Rows.records m c = .error (e.withStatement a.statement)
    | .ok places => ∃ r, Rows.records m c = .ok r ∧ Yields Rows.next r (a.decoded places.record)

/-- A cursor that has the header of an answer and all its rows before it gives the
    answer. -/
theorem Cursor.gives_of_remaining {c : Cursor} {a : Answer} (hbody : c.body.Unbroken)
    (hheader : c.header = some a.header) (hstatement : c.statement = a.statement)
    (hrows : c.remaining = a.rows) : c.Gives a := by
  -- Whatever the rows become, they are those of the cursor.
  have hdecoded {α : Type} (decode : Cells → Except Failure α) :
      Yields Rows.next ⟨some c, decode⟩ (a.decoded decode) := by
    have hsound : (⟨some c, decode⟩ : Rows α).Unbroken := by
      intro c' hc'
      rw [← Option.some.inj hc']
      exact hbody
    have hall := Rows.yields_remaining hsound
    simp only [Rows.remaining, hstatement, hrows] at hall
    exact hall
  refine ⟨hheader, ?_, ?_, ?_⟩
  · rw [← hrows]
    exact Cursor.yields_remaining hbody
  · rw [Rows.plain, hheader]
    exact hdecoded a.header.row
  · intro m
    have hrecords : Rows.records m c = ((Places.ofHeader m a.header).mapError
        (·.withStatement a.statement)).map fun places => ⟨some c, places.record⟩ := by
      rw [Rows.records, hheader, hstatement, Option.getD_some]
      cases Places.ofHeader m a.header with
      | error e => rfl
      | ok places => rfl
    rw [hrecords]
    cases Places.ofHeader m a.header with
    | error e => rfl
    | ok places => exact ⟨_, rfl, hdecoded places.record⟩

/-- Whatever the chunks of a response are, and whether it is read as a whole or as it
    arrives, a cursor for a question gives the answer that the bytes of the response
    are, or is refused as the answer is. -/
theorem Cursor.start_ofChunks (text : String) (mode : Mode) (chunks : List Bytes) :
    match Answer.read text chunks.flatten with
    | .error e => Cursor.start ⟨text, true⟩ (Body.ofChunks mode chunks) = .error e
    | .ok a => ∃ c, Cursor.start ⟨text, true⟩ (Body.ofChunks mode chunks) = .ok c ∧ c.Gives a := by
  have hopens : Cursor.OpensAt text _ _ :=
    Cursor.opensAt_read (Body.unbroken_ofChunks mode chunks)
  rw [Body.rest_ofChunks] at hopens
  cases hread : Answer.read text chunks.flatten with
  | error e =>
    rw [hread] at hopens
    exact hopens
  | ok a =>
    rw [hread] at hopens
    rcases hopens with ⟨c, hstart, hbody, hheader, hstatement, hrows⟩
    exact ⟨c, hstart, Cursor.gives_of_remaining hbody hheader hstatement hrows⟩

end ColumnStore
