import ColumnStore.Proofs.Session.Course
import ColumnStore.Proofs.Wire.Joined
import ColumnStore.Session.Definition
import ColumnStore.Session.Query

/-!
# Sessions Told Apart by Nothing

A session that waits for responses and one that takes them as they arrive can be put in
each other's place. From the same settings both are opened, or both are refused. Whatever is
asked of them, one operation after the other, and whatever the server says to it, they send
the same orders and have the same results and failures. The bodies of the answers have to be
texts: the two name it differently when the answer to a command is none.

The proof goes operation by operation. Two operations are alike if they lead from the same
exchange to the same exchange and their results are related. A cursor is not the same for
both sessions, only in step, and so is what is made of it; once rows are read, or counted, or
turned into records, the results are equal.

## Main definitions

* `Response.IsText`: The body of an answer is a text.
* `Exchanging.Alike`: Operations that do the same and have related results.
* `Session.Operation`, `Session.Outcome`: What a session is asked, and what comes of it.
* `Session.perform`, `Session.performAll`: One operation, and several in a row.

## Theorems

* `Exchanging.Alike.bind`: One operation after the other.
* `Session.run_alike`, `Session.tell_alike`: What every operation is made of.
* `Session.perform_alike`: Every operation.
* `Session.performAll_eq`: Sessions of the same settings.
-/

namespace ColumnStore

open Wire

/-- The body of an answer is a text. -/
def Response.IsText : Response → Prop
  | answer chunks => (text? chunks.flatten).isSome
  | refusal _ _ _ => True
  | nothing _ => True

/-- The answers that will come are texts. -/
def Exchange.IsText (e : Exchange) : Prop :=
  ∀ r ∈ e.coming, r.IsText

namespace Response

variable {mode mode' : Mode}

/-- Both cursors are opened at the same place of an answer, or both are refused. -/
theorem cursor_inStep (s : Statement) (r : Response) :
    Matched Cursor.InStep (r.cursor mode s) (r.cursor mode' s) := by
  cases r with
  | answer chunks => exact Cursor.InStep.start s (Body.inStep_ofChunks mode mode' chunks)
  | refusal status code body => exact .error _
  | nothing fault => exact .error _

/-- The same comes of a command, although its answer is not the same text for both. -/
theorem outcome_eq (s : Statement) {r : Response} (hr : r.IsText) :
    r.outcome mode s = r.outcome mode' s := by
  cases r with
  | refusal status code body => rfl
  | nothing fault => rfl
  | answer chunks =>
    rcases Option.isSome_iff_exists.1 hr with ⟨t, ht⟩
    have hrest (mode : Mode) : (Body.ofChunks mode chunks).rest = encode t := by
      rw [Body.rest_ofChunks]
      exact eq_encode_of_text? ht
    refine Matched.eq (((cursor_inStep s (answer chunks)).imp ?_).bind fun _ _ h => h)
    intro c c' hc hc' _
    rw [Cursor.text_eq (Body.unbroken_ofChunks mode chunks) (hrest mode) hc,
      Cursor.text_eq (Body.unbroken_ofChunks mode' chunks) (hrest mode') hc']
    exact .ok rfl

end Response

namespace Exchange

theorem isText_next {e : Exchange} (h : e.IsText) : e.next.IsText := by
  rcases e with ⟨sent, coming⟩
  cases coming with
  | nil => exact rfl
  | cons r coming => exact h r List.mem_cons_self

theorem isText_advance {e : Exchange} (h : e.IsText) (o : Order) : (e.advance o).IsText :=
  fun r hr => h r (List.mem_of_mem_tail hr)

end Exchange

namespace Exchanging

variable {α β γ δ : Type} {R : α → β → Prop} {S : γ → δ → Prop}

/-- Two operations are alike: from the same exchange they send the same orders, and they fail
    alike or have related results. -/
def Alike (R : α → β → Prop) (x : Exchanging α) (y : Exchanging β) : Prop :=
  ∀ e : Exchange, e.IsText →
    Matched R (x e).1 (y e).1 ∧ (x e).2 = (y e).2 ∧ (x e).2.IsText

namespace Alike

theorem pure {a : α} {b : β} (h : R a b) : Alike R (Pure.pure a) (Pure.pure b) :=
  fun _ he => ⟨.ok h, rfl, he⟩

theorem throw (failure : Failure) : Alike R (MonadExcept.throw failure) (MonadExcept.throw failure) :=
  fun _ he => ⟨.error failure, rfl, he⟩

/-- One operation after the other. -/
theorem bind {x : Exchanging α} {y : Exchanging β} {f : α → Exchanging γ} {g : β → Exchanging δ}
    (h : Alike R x y) (hnext : ∀ a b, R a b → Alike S (f a) (g b)) :
    Alike S (x >>= f) (y >>= g) := by
  intro e he
  rcases h e he with ⟨hresults, hafter, htext⟩
  rw [bind_run, bind_run]
  cases hx : x e with
  | mk result after =>
    cases hy : y e with
    | mk result' after' =>
      rw [hx, hy] at hresults hafter
      rw [hx] at htext
      dsimp only at hresults hafter htext
      subst hafter
      -- The next operations start from the same exchange, unless both have failed before it.
      cases hresults with
      | ok h => exact hnext _ _ h after htext
      | error failure => exact ⟨.error failure, rfl, htext⟩

/-- An operation after another one of which the result is the same. -/
theorem andThen {x y : Exchanging α} {f : α → Exchanging γ} {g : α → Exchanging δ}
    (h : Alike Eq x y) (hnext : ∀ a, Alike S (f a) (g a)) : Alike S (x >>= f) (y >>= g) :=
  h.bind fun a _ hab => hab ▸ hnext a

theorem result {x : Except Failure α} {y : Except Failure β} (h : Matched R x y) :
    Alike R (Exchanging.result x) (Exchanging.result y) := by
  cases h with
  | ok h => exact pure h
  | error failure => exact throw failure

theorem checked (x : Except Fault α) : Alike Eq (Exchanging.checked x) (Exchanging.checked x) := by
  cases x with
  | ok a => exact pure rfl
  | error fault => exact throw _

theorem forM {xs : List α} {f g : α → Exchanging Unit} (h : ∀ x, Alike Eq (f x) (g x)) :
    Alike Eq (xs.forM f) (xs.forM g) := by
  induction xs with
  | nil => exact pure rfl
  | cons x xs ih => exact (h x).andThen fun _ => ih

end Alike

end Exchanging

namespace Session

open Exchanging (Alike)

variable (mode mode' : Mode) (settings : Settings)

theorem ensureWritable_alike (operation : String) :
    Alike Eq (ensureWritable ⟨mode, settings⟩ operation)
      (ensureWritable ⟨mode', settings⟩ operation) := by
  unfold ensureWritable
  dsimp only
  split
  · exact .throw _
  · exact .pure rfl

/-- Carrying out a statement gives cursors in step. -/
theorem run_alike (s : Statement) :
    Alike Cursor.InStep (run ⟨mode, settings⟩ s) (run ⟨mode', settings⟩ s) :=
  fun e he => ⟨e.next.cursor_inStep s, rfl, Exchange.isText_advance he ⟨s, true⟩⟩

/-- Carrying out an order whose answer says nothing. -/
theorem tell_alike (o : Order) :
    Alike Eq (tell ⟨mode, settings⟩ o) (tell ⟨mode', settings⟩ o) := by
  intro e he
  rw [tell_run, tell_run]
  refine ⟨?_, rfl, Exchange.isText_advance he o⟩
  rw [Response.outcome_eq o.statement (Exchange.isText_next he)]
  exact .refl _

/-- The number that answers a question. -/
theorem scalar_alike (question : Statement) :
    Alike Eq (scalar ⟨mode, settings⟩ question) (scalar ⟨mode', settings⟩ question) := by
  refine (run_alike mode mode' settings question).bind ?_
  intro c c' h
  unfold firstNumber
  rw [(Rows.InStep.plain h).first_eq]
  exact .result (.refl _)

/-! ## Operations -/

theorem insertBatches_alike (size : Nat) (records : List Record) :
    Alike Eq (insertBatches ⟨mode, settings⟩ size records)
      (insertBatches ⟨mode', settings⟩ size records) := by
  refine (ensureWritable_alike mode mode' settings "INSERT").andThen fun _ => ?_
  refine (Alike.checked _).andThen fun batches => ?_
  cases records with
  | nil => exact .pure rfl
  | cons r rs =>
    refine Alike.andThen (Alike.forM fun batch => ?_) fun _ => .pure rfl
    exact (Alike.checked _).andThen fun _ => tell_alike mode mode' settings _

theorem select_alike (text : String) :
    Alike Rows.InStep (select ⟨mode, settings⟩ text) (select ⟨mode', settings⟩ text) :=
  (run_alike mode mode' settings _).bind fun _ _ h => .pure (.plain h)

/-- Plain rows are in step. -/
theorem rows_alike (q : Query) :
    Alike Rows.InStep (rows ⟨mode, settings⟩ q) (rows ⟨mode', settings⟩ q) :=
  (run_alike mode mode' settings q.select).bind fun _ _ h => .pure (.plain h)

/-- Records are in step. -/
theorem records_alike (q : Query) :
    Alike Rows.InStep (records ⟨mode, settings⟩ q) (records ⟨mode', settings⟩ q) := by
  have hread := (run_alike mode mode' settings q.select).bind fun _ _ h =>
    Alike.result (Rows.InStep.records q.model h)
  unfold records
  cases q.isAggregate with
  | true => exact .throw _
  | false => exact hread

theorem fetch_alike (q : Query) :
    Alike Eq (fetch ⟨mode, settings⟩ q) (fetch ⟨mode', settings⟩ q) := by
  refine (records_alike mode mode' settings q).bind ?_
  intro r r' h
  rw [h.all_eq]
  exact .result (.refl _)

theorem first_alike (q : Query) :
    Alike Eq (first ⟨mode, settings⟩ q) (first ⟨mode', settings⟩ q) := by
  refine (Alike.checked _).andThen fun q => ?_
  refine (records_alike mode mode' settings q).bind ?_
  intro r r' h
  rw [h.first_eq]
  exact .result (.refl _)

theorem any_alike (q : Query) :
    Alike Eq (any ⟨mode, settings⟩ q) (any ⟨mode', settings⟩ q) := by
  refine (run_alike mode mode' settings q.existence).bind ?_
  intro c c' h
  rw [(Rows.InStep.plain h).first_eq]
  exact (Alike.result (.refl _)).andThen fun _ => .pure rfl

/-- The rows are counted first, and the page is fetched then. -/
theorem page_alike (q : Query) (number size : UInt64) :
    Alike Eq (page ⟨mode, settings⟩ q number size) (page ⟨mode', settings⟩ q number size) := by
  refine (scalar_alike mode mode' settings q.count).andThen fun total => ?_
  refine (Alike.checked _).andThen fun place => ?_
  refine (Alike.checked _).andThen fun q => ?_
  exact (fetch_alike mode mode' settings q).andThen fun _ => .pure rfl

/-- What a session is asked to do. -/
inductive Operation
  /-- To create the database. -/
  | createDatabase (engine : Option DatabaseEngine)
  /-- To drop the database. -/
  | dropDatabase
  /-- To create the table of a model. -/
  | createTable (m : Model)
  /-- To drop the table of a model. -/
  | dropTable (m : Model)
  /-- To say whether the table of a model is there. -/
  | tableExists (m : Model)
  /-- To insert records in batches of the usual size. -/
  | insert (records : List Record)
  /-- To insert records in batches of a size. -/
  | insertBatches (size : Nat) (records : List Record)
  /-- To answer any question. -/
  | select (text : String)
  /-- To give the plain rows of a query. -/
  | rows (q : Query)
  /-- To give the records of a query one by one. -/
  | records (q : Query)
  /-- To give all records of a query. -/
  | fetch (q : Query)
  /-- To count the rows of a query. -/
  | count (q : Query)
  /-- To say whether a query has rows. -/
  | any (q : Query)
  /-- To give the first record of a query. -/
  | first (q : Query)
  /-- To give one page of the records of a query. -/
  | page (q : Query) (number size : UInt64)
  /-- To delete the rows of a query. -/
  | delete (q : Query)

/-- What comes of an operation. Rows that are read one by one count as what is given when they
    are called for, any number of times. -/
inductive Outcome
  /-- It is done. -/
  | done
  /-- The answer to whether something is there. -/
  | flag (answer : Bool)
  /-- A number of rows. -/
  | number (n : UInt64)
  /-- A number of records that were inserted. -/
  | inserted (n : Nat)
  /-- Plain rows. -/
  | rows (given : Nat → List (Option (Except Failure Row)))
  /-- Records. -/
  | records (given : Nat → List (Option (Except Failure Record)))
  /-- All records. -/
  | all (records : List Record)
  /-- The first record, if there is one. -/
  | one (record : Option Record)
  /-- A page. -/
  | page (page : Page)

/-- Carries out an operation. -/
def perform (s : Session) : Operation → Exchanging Outcome
  | .createDatabase engine => do s.createDatabase engine; pure .done
  | .dropDatabase => do s.dropDatabase; pure .done
  | .createTable m => do s.createTable m; pure .done
  | .dropTable m => do s.dropTable m; pure .done
  | .tableExists m => do pure (.flag (← s.tableExists m))
  | .insert records => do pure (.inserted (← s.insert records))
  | .insertBatches size records => do pure (.inserted (← s.insertBatches size records))
  | .select text => do
    let rows ← s.select text
    pure (.rows fun n => calls Rows.next n rows)
  | .rows q => do
    let rows ← s.rows q
    pure (.rows fun n => calls Rows.next n rows)
  | .records q => do
    let records ← s.records q
    pure (.records fun n => calls Rows.next n records)
  | .fetch q => do pure (.all (← s.fetch q))
  | .count q => do pure (.number (← s.count q))
  | .any q => do pure (.flag (← s.any q))
  | .first q => do pure (.one (← s.first q))
  | .page q number size => do pure (.page (← s.page q number size))
  | .delete q => do s.delete q; pure .done

/-- Carries out operations one after the other, whatever comes of them. Each leaves what came of
    it, and the exchange that it led to. -/
def performAll (s : Session) : List Operation → Exchange → List (Except Failure Outcome × Exchange)
  | [], _ => []
  | operation :: operations, e =>
    let step := s.perform operation e
    step :: s.performAll operations step.2

/-- Every operation does the same in both sessions. -/
theorem perform_alike (operation : Operation) :
    Alike Eq (perform ⟨mode, settings⟩ operation) (perform ⟨mode', settings⟩ operation) := by
  have hwritable := ensureWritable_alike mode mode' settings
  have htell := tell_alike mode mode' settings
  cases operation with
  | createDatabase engine =>
    exact ((hwritable _).andThen fun _ => htell _).andThen fun _ => .pure rfl
  | dropDatabase => exact ((hwritable _).andThen fun _ => htell _).andThen fun _ => .pure rfl
  | createTable m =>
    exact ((hwritable _).andThen fun _ => (Alike.checked _).andThen fun _ => htell _).andThen
      fun _ => .pure rfl
  | dropTable m => exact ((hwritable _).andThen fun _ => htell _).andThen fun _ => .pure rfl
  | tableExists m =>
    exact ((scalar_alike mode mode' settings _).andThen fun _ => .pure rfl).andThen
      fun _ => .pure rfl
  | insert records =>
    exact (insertBatches_alike mode mode' settings _ records).andThen fun _ => .pure rfl
  | insertBatches size records =>
    exact (insertBatches_alike mode mode' settings size records).andThen fun _ => .pure rfl
  | select text =>
    refine (select_alike mode mode' settings text).bind ?_
    intro r r' h
    exact .pure (congrArg Outcome.rows (funext h.calls))
  | rows q =>
    refine (rows_alike mode mode' settings q).bind ?_
    intro r r' h
    exact .pure (congrArg Outcome.rows (funext h.calls))
  | records q =>
    refine (records_alike mode mode' settings q).bind ?_
    intro r r' h
    exact .pure (congrArg Outcome.records (funext h.calls))
  | fetch q => exact (fetch_alike mode mode' settings q).andThen fun _ => .pure rfl
  | count q => exact (scalar_alike mode mode' settings q.count).andThen fun _ => .pure rfl
  | any q => exact (any_alike mode mode' settings q).andThen fun _ => .pure rfl
  | first q => exact (first_alike mode mode' settings q).andThen fun _ => .pure rfl
  | page q number size =>
    exact (page_alike mode mode' settings q number size).andThen fun _ => .pure rfl
  | delete q =>
    exact ((hwritable _).andThen fun _ => (Alike.checked _).andThen fun _ => htell _).andThen
      fun _ => .pure rfl

/-- Operations one after the other do the same in both sessions. -/
theorem performAll_alike (operations : List Operation) {e : Exchange} (he : e.IsText) :
    performAll ⟨mode, settings⟩ operations e = performAll ⟨mode', settings⟩ operations e := by
  -- Each operation starts from the exchange that the one before it has left, whatever came of it.
  induction operations generalizing e with
  | nil => rfl
  | cons operation operations ih =>
    rcases perform_alike mode mode' settings operation e he with ⟨hresult, hafter, htext⟩
    have hstep := Prod.ext hresult.eq hafter
    rw [performAll, performAll, ← hstep, ih htext]

/-- Two sessions of the same settings can be put in each other's place, whichever way they read:
    both are refused, or for all operations in a row and all responses of which the answers are
    texts they send the same orders, and the same comes of each operation. -/
theorem performAll_eq (operations : List Operation) {responses : List Response}
    (htext : ∀ r ∈ responses, r.IsText) :
    (connect mode settings).map (fun s => s.performAll operations ⟨[], responses⟩) =
      (connect mode' settings).map fun s => s.performAll operations ⟨[], responses⟩ := by
  unfold connect
  cases settings.check with
  | error e => rfl
  | ok u =>
    have he : Exchange.IsText ⟨[], responses⟩ := htext
    exact congrArg Except.ok (performAll_alike mode mode' settings operations he)

/-- An answer that is cut inside a word, and a refusal. -/
def answerThenRefusal : List Response :=
  [.answer [encode "n\nUInt".toList, encode "8\n7\r\n".toList],
    .refusal 500 (some "60") "DB::Exception: no table"]

/-- A question is answered, an order is refused, and both sessions say so. -/
theorem performAll_answerThenRefusal :
    (∀ r ∈ answerThenRefusal, r.IsText) ∧
      performAll ⟨.blocking, .usual⟩ [.select "SELECT 7 AS n", .dropDatabase]
          ⟨[], answerThenRefusal⟩ =
        performAll ⟨.streaming, .usual⟩ [.select "SELECT 7 AS n", .dropDatabase]
          ⟨[], answerThenRefusal⟩ ∧
      (performAll ⟨.streaming, .usual⟩ [.select "SELECT 7 AS n", .dropDatabase]
        ⟨[], answerThenRefusal⟩).map (fun step => step.2.sent.length) = [1, 2] := by
  have htext : ∀ r ∈ answerThenRefusal, r.IsText := by
    intro r hr
    rcases List.mem_pair.1 hr with rfl | rfl
    · have ht : text? [encode "n\nUInt".toList, encode "8\n7\r\n".toList].flatten =
          some "n\nUInt8\n7\r\n".toList := text?_encode "n\nUInt8\n7\r\n".toList
      exact Option.isSome_of_eq_some ht
    · trivial
  have h := performAll_eq .blocking .streaming .usual [.select "SELECT 7 AS n", .dropDatabase] htext
  exact ⟨htext, Except.ok.inj h, rfl⟩

end Session

end ColumnStore
