import ColumnStore.Session.Basic
import ColumnStore.Statement.Insert

/-!
# Insertions of a Session

Records are inserted in batches, one statement for each, into the table of the
model of the first record. A statement is put together when its turn has come,
so a refusal of a later batch does not take back an earlier one.

## Main definitions

* `batches`: A list in pieces of a size.
* `Session.insertBatches`: Inserts records in batches of a size.
* `Session.insert`: Inserts records in batches of the usual size.
-/

namespace ColumnStore

/-- A list in pieces of a size, of which the last may be shorter. The size is
    one more than the number that is given, so that no piece is empty. -/
def pieces {α : Type} (sizeLessOne : Nat) : List α → List (List α)
  | [] => []
  | x :: xs => (x :: xs.take sizeLessOne) :: pieces sizeLessOne (xs.drop sizeLessOne)
termination_by xs => xs.length
decreasing_by simp only [List.length_drop, List.length_cons]; omega

/-- A list in pieces of a size, which must not be zero. -/
def batches {α : Type} (size : Nat) (xs : List α) : Except Fault (List (List α)) :=
  match size with
  | 0 => .error .emptyBatch
  | n + 1 => .ok (pieces n xs)

/-- The pieces, one after the other, are the list. -/
theorem flatten_pieces {α : Type} (n : Nat) (xs : List α) : (pieces n xs).flatten = xs := by
  match xs with
  | [] => simp [pieces]
  | x :: xs =>
    have ih := flatten_pieces n (xs.drop n)
    rw [pieces, List.flatten_cons, ih, List.cons_append, List.take_append_drop]
termination_by xs.length
decreasing_by simp only [List.length_drop, List.length_cons]; omega

/-- No piece is empty, and none is longer than the size. -/
theorem length_of_mem_pieces {α : Type} (n : Nat) (xs : List α) :
    ∀ p ∈ pieces n xs, 1 ≤ p.length ∧ p.length ≤ n + 1 := by
  match xs with
  | [] => simp [pieces]
  | x :: xs =>
    intro p hp
    rw [pieces, List.mem_cons] at hp
    rcases hp with rfl | hp
    · simp only [List.length_cons, List.length_take]
      omega
    · exact length_of_mem_pieces n (xs.drop n) p hp
termination_by xs.length
decreasing_by simp only [List.length_drop, List.length_cons]; omega

namespace Session

/-- The usual number of records in a statement. -/
def usualBatch : Nat := 1000

/-- Inserts the records of a batch into the table of a model. -/
def insertBatch (s : Session) (m : Model) (batch : List Record) : Exchanging Unit := do
  let statement ← Exchanging.checked (m.insert batch)
  s.tell ⟨statement, true⟩

/-- Inserts records in batches of a size, and gives their number. -/
def insertBatches (s : Session) (size : Nat) (records : List Record) : Exchanging Nat := do
  s.ensureWritable "INSERT"
  let batches ← Exchanging.checked (batches size records)
  match records with
  | [] => pure 0
  | r :: _ =>
    batches.forM (s.insertBatch r.model)
    pure records.length

/-- Inserts records in batches of the usual size, and gives their number. -/
def insert (s : Session) (records : List Record) : Exchanging Nat :=
  s.insertBatches usualBatch records

end Session

end ColumnStore
