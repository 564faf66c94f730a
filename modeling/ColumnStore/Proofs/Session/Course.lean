import ColumnStore.Proofs.Wire.Lines
import ColumnStore.Session.Insert

/-!
# The Course of an Insertion

What a session does when it inserts batches one after the other: each batch is put
together and sent in its turn, until all are, or one of them is refused, or the server
fails to carry one out. A refusal never comes from the server, so the batches before the
refused one are the ones that were sent and carried out.

## Main definitions

* `Response.outcome`: What comes of a command.
* `Exchange.Carries`: Commands that are sent and carried out one after the other.

## Theorems

* `Response.outcome_ne_build`: The server does not refuse what was asked for.
* `Session.tell_run`, `Session.insertBatch_run`: One order, and one batch.
* `Session.insertBatches_cons`: Some records, in their batches.
* `Session.forM_insertBatch_of_carries`: All batches are carried out.
* `Session.forM_insertBatch_eq_build_iff`: One of the batches is refused.
-/

namespace ColumnStore

namespace Body

/-- The lines of a body that does not break off can only fail to be text. -/
theorem remainingLines_eq_error {n : Nat} {b : Body} (hb : b.Unbroken) {failure : Failure}
    (h : b.remainingLines n = .error failure) : failure = .transport .notText none := by
  induction n generalizing b with
  | zero => cases h
  | succ n ih =>
    by_cases hrest : b.rest = []
    · rcases nextLine_of_rest_nil hb hrest with ⟨after, hnext, -, -⟩
      simp only [remainingLines, hnext] at h
      cases h
    · rcases nextLine_of_rest_ne_nil hb hrest with ⟨after, hnext, hafter, -⟩
      simp only [remainingLines, hnext] at h
      -- Either this line is no text, or one of the lines after it is none.
      cases hline : readLine (Wire.cutLine b.rest).1 with
      | error e =>
        rw [hline] at h
        unfold readLine at hline
        split at hline
        · cases hline
        · cases hline
          cases h
          rfl
      | ok line =>
        rw [hline] at h
        simp only [Except.map] at h
        cases hlines : after.remainingLines n with
        | error e =>
          rw [hlines] at h
          cases h
          exact ih hafter hlines
        | ok lines =>
          rw [hlines] at h
          cases h

/-- The text of a response that does not break off can only be missing. -/
theorem text_eq_error {b : Body} (hb : b.Unbroken) {failure : Failure}
    (h : b.text = .error failure) : ∃ fault, failure = .transport fault none := by
  cases b with
  | whole rest =>
    simp only [text] at h
    split at h
    · cases h
    · cases h
      exact ⟨_, rfl⟩
  | arriving buffer chunks broken =>
    simp only [text] at h
    cases hlines : (arriving buffer chunks broken).remainingLines
        ((arriving buffer chunks broken).size + 1) with
    | error e =>
      rw [hlines] at h
      cases h
      exact ⟨_, remainingLines_eq_error hb hlines⟩
    | ok lines =>
      rw [hlines] at h
      cases h

end Body

/-- What it takes to put a batch together: a model that is written, a record, and a row for
    each record. -/
theorem Model.insert_eq_ok_iff {m : Model} {records : List Record} {statement : Statement} :
    m.insert records = .ok statement ↔
      m.readonly = false ∧ records ≠ [] ∧ ∃ rows, records.mapM m.rowSql = .ok rows ∧
        statement = .command ("INSERT INTO ".toList ++ m.tableSql ++ ' ' ::
          (bracketed (commaSeparated (m.insertable.map fun f => Text.quoteName f.column.toList))
            ++ " VALUES ".toList ++ commaSeparated rows)) := by
  unfold Model.insert
  cases hreadonly : m.readonly with
  | true => simp [throw, throwThe, MonadExceptOf.throw, bind, Except.bind]
  | false =>
    cases records with
    | nil => simp [throw, throwThe, MonadExceptOf.throw, bind, Except.bind]
    | cons r rs =>
      cases hrows : (r :: rs).mapM m.rowSql with
      | error fault => simp [bind, Except.bind]
      | ok rows => simp [bind, Except.bind, pure, Except.pure, eq_comm]

theorem Model.returnsRows_of_insert {m : Model} {records : List Record} {statement : Statement}
    (h : m.insert records = .ok statement) : statement.returnsRows = false := by
  rcases Model.insert_eq_ok_iff.1 h with ⟨-, -, rows, -, rfl⟩
  rfl

/-- What comes of a command: nothing, or the failure to learn that it was carried out. -/
def Response.outcome (mode : Mode) (s : Statement) (r : Response) : Except Failure Unit := do
  let cursor ← r.cursor mode s
  let _ ← cursor.text

/-- A refusal of what was asked for does not come from the server. -/
theorem Response.outcome_ne_build {mode : Mode} {s : Statement} (hs : s.returnsRows = false)
    (r : Response) (fault : Fault) : r.outcome mode s ≠ .error (.build fault) := by
  intro h
  cases r with
  | refusal status code body =>
    -- A refused request stands for an error of the server or for a missing response.
    simp only [outcome, cursor] at h
    have hclassify : Wire.classify status code body s.text = .build fault := Except.error.inj h
    unfold Wire.classify at hclassify
    dsimp only at hclassify
    split at hclassify <;> cases hclassify
  | nothing fault' => cases h
  | answer chunks =>
    have hcursor : (Response.answer chunks).cursor mode s =
        .ok ⟨none, Body.ofChunks mode chunks, s.text, true⟩ := by
      simp only [cursor, Cursor.start, hs]
      rfl
    rw [outcome, hcursor] at h
    cases htext : (Body.ofChunks mode chunks).text with
    | ok text =>
      simp only [Cursor.text, htext, bind, Except.bind] at h
      cases h
    | error failure =>
      rcases Body.text_eq_error (Body.unbroken_ofChunks mode chunks) htext with ⟨fault', rfl⟩
      simp only [Cursor.text, htext, bind, Except.bind] at h
      cases h

namespace Exchange

/-- The response to the next order. -/
def next (e : Exchange) : Response :=
  e.coming.head?.getD (.answer [])

/-- The exchange after one more order. -/
def advance (e : Exchange) (o : Order) : Exchange :=
  ⟨e.sent ++ [o], e.coming.tail⟩

/-- Commands are sent one after the other, and each of them is carried out. -/
inductive Carries (mode : Mode) : List Statement → Exchange → Exchange → Prop
  /-- No command is sent. -/
  | nil (e : Exchange) : Carries mode [] e e
  /-- The first command is carried out, and then the others. -/
  | cons {s : Statement} {rest : List Statement} {e e' : Exchange}
      (first : e.next.outcome mode s = .ok ())
      (others : Carries mode rest (e.advance ⟨s, true⟩) e') :
      Carries mode (s :: rest) e e'

/-- Commands that are carried out were sent in their order. -/
theorem Carries.sent_eq {mode : Mode} {statements : List Statement} {e e' : Exchange}
    (h : Carries mode statements e e') :
    e'.sent = e.sent ++ statements.map fun s => ⟨s, true⟩ := by
  induction h with
  | nil e => simp
  | cons first others ih =>
    rw [ih, advance, List.append_assoc]
    rfl

end Exchange

/-- An operation after another one starts where that one has left the exchange, unless it
    has failed. -/
theorem Exchanging.bind_run {α β : Type} (first : Exchanging α) (then_ : α → Exchanging β)
    (e : Exchange) :
    (first >>= then_) e = match first e with
      | (.ok x, next) => then_ x next
      | (.error failure, next) => (.error failure, next) := by
  simp only [bind, ExceptT.bind, ExceptT.mk, StateT.bind]
  cases first e with
  | mk result next => cases result <;> rfl

namespace Session

open Exchange (Carries)

theorem tell_run (s : Session) (o : Order) (e : Exchange) :
    s.tell o e = (e.next.outcome s.mode o.statement, e.advance o) := by
  have hsend : Exchanging.send s.mode o e = (e.next.cursor s.mode o.statement, e.advance o) := rfl
  rw [tell, Exchanging.bind_run, hsend]
  unfold Response.outcome
  cases e.next.cursor s.mode o.statement with
  | error failure => rfl
  | ok cursor =>
    simp only [bind, Except.bind]
    cases cursor.text with
    | error failure => rfl
    | ok text => rfl

/-- A batch that is refused leaves the exchange as it was, and any other is sent. -/
theorem insertBatch_run (s : Session) (m : Model) (batch : List Record) (e : Exchange) :
    s.insertBatch m batch e = match m.insert batch with
      | .error fault => (.error (.build fault), e)
      | .ok statement => (e.next.outcome s.mode statement, e.advance ⟨statement, true⟩) := by
  rw [insertBatch, Exchanging.bind_run]
  cases m.insert batch with
  | error fault => rfl
  | ok statement => exact s.tell_run ⟨statement, true⟩ e

/-- The batches after the first one are inserted where the first one was carried out. -/
theorem forM_insertBatch_cons (s : Session) (m : Model) (batch : List Record)
    (batches : List (List Record)) (e : Exchange) :
    (batch :: batches).forM (s.insertBatch m) e = match m.insert batch with
      | .error fault => (.error (.build fault), e)
      | .ok statement =>
        match e.next.outcome s.mode statement with
        | .error failure => (.error failure, e.advance ⟨statement, true⟩)
        | .ok () => batches.forM (s.insertBatch m) (e.advance ⟨statement, true⟩) := by
  show (s.insertBatch m batch >>= fun _ => batches.forM (s.insertBatch m)) e = _
  rw [Exchanging.bind_run, insertBatch_run]
  cases m.insert batch with
  | error fault => rfl
  | ok statement =>
    dsimp only
    cases e.next.outcome s.mode statement <;> rfl

/-- Nothing is sent where writing is refused. -/
theorem insertBatches_of_readonly {s : Session} (h : s.settings.readonly = true) (size : Nat)
    (records : List Record) (e : Exchange) :
    s.insertBatches size records e = (.error (.build (.readOnlyDatabase s.name "INSERT")), e) := by
  rw [insertBatches, Exchanging.bind_run, ensureWritable, h]
  rfl

/-- Nothing is sent where batches have no room. -/
theorem insertBatches_zero {s : Session} (h : s.settings.readonly = false)
    (records : List Record) (e : Exchange) :
    s.insertBatches 0 records e = (.error (.build .emptyBatch), e) := by
  rw [insertBatches, Exchanging.bind_run, ensureWritable, h]
  rfl

/-- Nothing is sent for no records. -/
theorem insertBatches_nil {s : Session} (h : s.settings.readonly = false) (n : Nat)
    (e : Exchange) : s.insertBatches (n + 1) [] e = (.ok 0, e) := by
  rw [insertBatches, Exchanging.bind_run, ensureWritable, h]
  rfl

/-- The batches of some records are inserted into the table of the first one. -/
theorem insertBatches_cons {s : Session} (h : s.settings.readonly = false) (n : Nat)
    (r : Record) (rs : List Record) (e : Exchange) :
    s.insertBatches (n + 1) (r :: rs) e =
      match (pieces n (r :: rs)).forM (s.insertBatch r.model) e with
      | (.ok _, e') => (.ok (r :: rs).length, e')
      | (.error failure, e') => (.error failure, e') := by
  rw [insertBatches, Exchanging.bind_run, ensureWritable, h]
  show (((pieces n (r :: rs)).forM (s.insertBatch r.model) >>= fun _ =>
    pure (r :: rs).length : Exchanging Nat)) e = _
  rw [Exchanging.bind_run]
  cases (pieces n (r :: rs)).forM (s.insertBatch r.model) e with
  | mk result e' => cases result <;> rfl

variable {s : Session} {m : Model} {batches : List (List Record)} {e e' : Exchange}

/-- The statement of the first batch, and those of the others. -/
theorem statements_cons {batch : List Record} {statements : List Statement} :
    (batch :: batches).mapM m.insert = .ok statements ↔
      ∃ statement rest, m.insert batch = .ok statement ∧ batches.mapM m.insert = .ok rest ∧
        statements = statement :: rest := by
  rw [List.mapM_cons]
  constructor
  · intro h
    cases hbatch : m.insert batch with
    | error fault =>
      rw [hbatch] at h
      cases h
    | ok statement =>
      cases hrest : batches.mapM m.insert with
      | error fault =>
        rw [hbatch, hrest] at h
        cases h
      | ok rest =>
        rw [hbatch, hrest] at h
        cases h
        exact ⟨statement, rest, rfl, rfl, rfl⟩
  · rintro ⟨statement, rest, hbatch, hrest, rfl⟩
    rw [hbatch, hrest]
    rfl

theorem length_statements {statements : List Statement}
    (h : batches.mapM m.insert = .ok statements) : statements.length = batches.length := by
  induction batches generalizing statements with
  | nil =>
    cases h
    rfl
  | cons batch batches ih =>
    rcases statements_cons.1 h with ⟨statement, rest, -, hrest, rfl⟩
    rw [List.length_cons, List.length_cons, ih hrest]

/-- Batches are carried out if all of them can be put together and the server carries
    them out. -/
theorem forM_insertBatch_of_carries {statements : List Statement}
    (hinsert : batches.mapM m.insert = .ok statements) (hcarries : Carries s.mode statements e e') :
    batches.forM (s.insertBatch m) e = (.ok (), e') := by
  induction batches generalizing statements e with
  | nil =>
    cases hinsert
    cases hcarries
    rfl
  | cons batch batches ih =>
    rcases statements_cons.1 hinsert with ⟨statement, rest, hbatch, hrest, rfl⟩
    cases hcarries with
    | cons first others =>
      rw [forM_insertBatch_cons, hbatch]
      simp only [first]
      exact ih hrest others

/-- One of the batches is refused exactly if those before it can be put together and are
    carried out, and it cannot be put together itself. -/
theorem forM_insertBatch_eq_build_iff {fault : Fault} :
    batches.forM (s.insertBatch m) e = (.error (.build fault), e') ↔
      ∃ before batch after statements, batches = before ++ batch :: after ∧
        before.mapM m.insert = .ok statements ∧ Carries s.mode statements e e' ∧
        m.insert batch = .error fault := by
  constructor
  · intro h
    induction batches generalizing e with
    | nil => cases h
    | cons batch batches ih =>
      rw [forM_insertBatch_cons] at h
      cases hbatch : m.insert batch with
      | error fault' =>
        -- This is the batch that is refused, and nothing was sent for it.
        rw [hbatch] at h
        cases h
        exact ⟨[], batch, batches, [], rfl, rfl, .nil _, hbatch⟩
      | ok statement =>
        rw [hbatch] at h
        cases houtcome : e.next.outcome s.mode statement with
        | error failure =>
          simp only [houtcome] at h
          cases h
          exact absurd houtcome (e.next.outcome_ne_build (Model.returnsRows_of_insert hbatch) fault)
        | ok u =>
          simp only [houtcome] at h
          rcases ih h with ⟨before, refused, after, statements, rfl, hbefore, hcarries, hrefused⟩
          exact ⟨batch :: before, refused, after, statement :: statements, rfl,
            statements_cons.2 ⟨statement, statements, hbatch, hbefore, rfl⟩,
            .cons houtcome hcarries, hrefused⟩
  · rintro ⟨before, refused, after, statements, rfl, hbefore, hcarries, hrefused⟩
    induction before generalizing statements e with
    | nil =>
      cases hbefore
      cases hcarries
      rw [List.nil_append, forM_insertBatch_cons, hrefused]
    | cons batch before ih =>
      rcases statements_cons.1 hbefore with ⟨statement, rest, hbatch, hrest, rfl⟩
      cases hcarries with
      | cons first others =>
        rw [List.cons_append, forM_insertBatch_cons, hbatch]
        simp only [first]
        exact ih rest hrest others

end Session

end ColumnStore
