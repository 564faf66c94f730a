import ColumnStore.Proofs.Session.Interchange

/-!
# Sessions That Only Read

A session whose settings only read never writes. Whatever it is asked, in whatever order, beside
whichever other sessions of that kind, and whatever the server says to it, it sends nothing but
questions that begin with `SELECT` or `EXISTS TABLE` and ask for a format of rows. What would
write is refused before anything is sent, also where there would have been nothing to write.
Only a statement that the caller has written, and the question for the version of the server,
go out as they are.

The refusal is made by each operation for itself, so the cases are those of the operations. All
others are put together from one way to send, and what they send is put together in the same
way. A query holds no session, so a query that is carried out by another session is the same
query there.

## Main definitions

* `Statement.Reads`: A question that reads.
* `Exchanging.SendsOnly`: What an operation sends, wherever it starts.
* `Session.Operation.writing?`, `Session.Operation.given?`: What an operation would write, and
  the statement that it is given.
* `Session.Use`, `Session.use`, `Session.useAll`: Operations and statements of the caller.

## Theorems

* `Query.select_reads`, `Query.count_reads`, `Query.existence_reads`, `Model.tableExists_reads`:
  The statements that read.
* `Exchanging.SendsOnly.bind`: One operation after the other.
* `Session.perform_of_writing`: What would write is refused.
* `Session.use_sendsOnly`: What is sent for one use.
* `Session.useAll_of_readonly`: What is sent for any number of uses.
-/

namespace ColumnStore

/-! ## Statements that read -/

/-- A question that reads. -/
structure Statement.Reads (s : Statement) : Prop where
  /-- The text asks for rows, or for the presence of a table. -/
  text : "SELECT ".toList <+: s.text.toList ∨ "EXISTS TABLE ".toList <+: s.text.toList
  /-- The format of the answer is asked for. -/
  body : s.body = s.text ++ " FORMAT " ++ Statement.rowFormat

theorem Statement.reads_query {text : List Char}
    (h : "SELECT ".toList <+: text ∨ "EXISTS TABLE ".toList <+: text) :
    (Statement.query text).Reads where
  text := by
    have htext : (Statement.query text).text.toList = text := String.toList_ofList
    rwa [htext]
  body := rfl

namespace Query

theorem select_reads (q : Query) : q.select.Reads := by
  refine Statement.reads_query (.inl ?_)
  unfold selectText
  simp only [List.append_assoc]
  exact List.prefix_append _ _

theorem count_reads (q : Query) : q.count.Reads := by
  have hword : "SELECT ".toList <+: "SELECT count(*)".toList := by decide
  exact Statement.reads_query (.inl (hword.trans (List.prefix_append _ _)))

theorem existence_reads (q : Query) : q.existence.Reads := by
  have hword : "SELECT ".toList <+: "SELECT 1".toList := by decide
  refine Statement.reads_query (.inl (hword.trans ?_))
  rw [List.append_assoc]
  exact List.prefix_append _ _

end Query

theorem Model.tableExists_reads (m : Model) : m.tableExists.Reads :=
  Statement.reads_query (.inr (List.prefix_append _ _))

/-! ## What an operation sends -/

namespace Exchanging

variable {α β : Type} {P : Order → Prop}

/-- An operation keeps what was sent before it, and sends only what has a property. -/
def SendsOnly (P : Order → Prop) (x : Exchanging α) : Prop :=
  ∀ e : Exchange, ∃ orders, (x e).2.sent = e.sent ++ orders ∧ ∀ o ∈ orders, P o

namespace SendsOnly

theorem of_unchanged {x : Exchanging α} (h : ∀ e, (x e).2 = e) : SendsOnly P x :=
  fun e => ⟨[], by rw [h, List.append_nil], nofun⟩

theorem pure (a : α) : SendsOnly P (Pure.pure a) :=
  of_unchanged fun _ => rfl

theorem result (x : Except Failure α) : SendsOnly P (Exchanging.result x) := by
  cases x with
  | ok a => exact pure a
  | error failure => exact of_unchanged fun _ => rfl

theorem checked (x : Except Fault α) : SendsOnly P (Exchanging.checked x) := by
  cases x with
  | ok a => exact pure a
  | error fault => exact of_unchanged fun _ => rfl

theorem send (mode : Mode) {o : Order} (h : P o) : SendsOnly P (Exchanging.send mode o) :=
  fun _ => ⟨[o], rfl, fun _ ho => List.mem_singleton.1 ho ▸ h⟩

/-- One operation after the other sends what both of them send. -/
theorem bind {x : Exchanging α} {f : α → Exchanging β} (h : SendsOnly P x)
    (hnext : ∀ a, SendsOnly P (f a)) : SendsOnly P (x >>= f) := by
  intro e
  rcases h e with ⟨orders, hsent, horders⟩
  rw [bind_run]
  cases hx : x e with
  | mk result after =>
    rw [hx] at hsent
    cases result with
    | error failure => exact ⟨orders, hsent, horders⟩
    | ok a =>
      rcases hnext a after with ⟨others, hothers, hall⟩
      refine ⟨orders ++ others, ?_, ?_⟩
      · rw [hothers, hsent, List.append_assoc]
      · exact fun o ho => (List.mem_append.1 ho).elim (horders o) (hall o)

end SendsOnly

end Exchanging

namespace Session

open Exchanging (SendsOnly)

variable {P : Order → Prop} (s : Session)

theorem run_sendsOnly {statement : Statement} (h : P ⟨statement, true⟩) :
    SendsOnly P (s.run statement) :=
  .send s.mode h

theorem scalar_sendsOnly {question : Statement} (h : P ⟨question, true⟩) :
    SendsOnly P (s.scalar question) :=
  (s.run_sendsOnly h).bind fun _ => .result _

theorem records_sendsOnly (q : Query) (h : P ⟨q.select, true⟩) : SendsOnly P (s.records q) := by
  have hread : SendsOnly P (s.run q.select >>= fun c => Exchanging.result (Rows.records q.model c)) :=
    (s.run_sendsOnly h).bind fun _ => .result _
  unfold records
  cases q.isAggregate with
  | true => exact .of_unchanged fun _ => rfl
  | false => exact hread

theorem fetch_sendsOnly (q : Query) (h : P ⟨q.select, true⟩) : SendsOnly P (s.fetch q) :=
  (s.records_sendsOnly q h).bind fun _ => .result _

/-! ## Operations -/

/-- What an operation would write, if it would write anything. -/
def Operation.writing? : Operation → Option String
  | createDatabase _ => some "CREATE DATABASE"
  | dropDatabase => some "DROP DATABASE"
  | createTable _ => some "CREATE TABLE"
  | dropTable _ => some "DROP TABLE"
  | insert _ => some "INSERT"
  | insertBatches _ _ => some "INSERT"
  | delete _ => some "DELETE"
  | tableExists _ | select _ | rows _ | records _ | fetch _ | count _ | any _ | first _
  | page _ _ _ => none

/-- The statement that an operation is given, if it is given one. -/
def Operation.given? : Operation → Option Statement
  | select text => some (.query text.toList)
  | _ => none

/-- A session that only reads comes no further than to the refusal. -/
theorem ensureWritable_bind_run {s : Session} (h : s.settings.readonly = true) (word : String)
    {β : Type} (f : Unit → Exchanging β) (e : Exchange) :
    (s.ensureWritable word >>= f) e = (.error (.build (.readOnlyDatabase s.name word)), e) := by
  rw [Exchanging.bind_run, ensureWritable, if_pos h]
  rfl

/-- What would write is refused, and the exchange stays as it was. -/
theorem perform_of_writing {s : Session} (h : s.settings.readonly = true) {operation : Operation}
    {word : String} (hword : operation.writing? = some word) (e : Exchange) :
    s.perform operation e = (.error (.build (.readOnlyDatabase s.name word)), e) := by
  have hrefused {β : Type} (f : Unit → Exchanging β) := ensureWritable_bind_run h word f e
  cases operation with
  | createDatabase engine =>
    cases hword
    rw [perform, Exchanging.bind_run, createDatabase, hrefused]
  | dropDatabase =>
    cases hword
    rw [perform, Exchanging.bind_run, dropDatabase, hrefused]
  | createTable m =>
    cases hword
    rw [perform, Exchanging.bind_run, createTable, hrefused]
  | dropTable m =>
    cases hword
    rw [perform, Exchanging.bind_run, dropTable, hrefused]
  | insert records =>
    cases hword
    rw [perform, Exchanging.bind_run, insert, insertBatches_of_readonly h]
  | insertBatches size records =>
    cases hword
    rw [perform, Exchanging.bind_run, insertBatches_of_readonly h]
  | delete q =>
    cases hword
    rw [perform, Exchanging.bind_run, delete, hrefused]
  | tableExists _ | select _ | rows _ | records _ | fetch _ | count _ | any _ | first _
  | page _ _ _ => cases hword

/-- An operation of a session that only reads sends questions that read, and the statement that
    it is given. -/
theorem perform_sendsOnly {s : Session} (h : s.settings.readonly = true) (operation : Operation) :
    SendsOnly (fun o => o.statement.Reads ∨ operation.given? = some o.statement)
      (s.perform operation) := by
  cases hword : operation.writing? with
  | some word => exact .of_unchanged fun e => by rw [perform_of_writing h hword]
  | none =>
    cases operation with
    | createDatabase _ | dropDatabase | createTable _ | dropTable _ | insert _
    | insertBatches _ _ | delete _ => cases hword
    | tableExists m =>
      exact ((s.scalar_sendsOnly (.inl m.tableExists_reads)).bind fun _ => .pure _).bind
        fun _ => .pure _
    | select text =>
      exact ((s.run_sendsOnly (.inr rfl)).bind fun _ => .pure _).bind fun _ => .pure _
    | rows q =>
      exact ((s.run_sendsOnly (.inl q.select_reads)).bind fun _ => .pure _).bind fun _ => .pure _
    | records q => exact (s.records_sendsOnly q (.inl q.select_reads)).bind fun _ => .pure _
    | fetch q => exact (s.fetch_sendsOnly q (.inl q.select_reads)).bind fun _ => .pure _
    | count q => exact (s.scalar_sendsOnly (.inl q.count_reads)).bind fun _ => .pure _
    | any q =>
      exact ((s.run_sendsOnly (.inl q.existence_reads)).bind fun _ =>
        (SendsOnly.result _).bind fun _ => .pure _).bind fun _ => .pure _
    | first q =>
      refine SendsOnly.bind ((SendsOnly.checked _).bind fun q => ?_) fun _ => .pure _
      exact (s.records_sendsOnly q (.inl q.select_reads)).bind fun _ => .result _
    | page q number size =>
      -- Both the rows that are counted and those of the page are asked for by questions.
      refine SendsOnly.bind ?_ fun _ => .pure _
      refine (s.scalar_sendsOnly (.inl q.count_reads)).bind fun total => ?_
      refine (SendsOnly.checked _).bind fun place => (SendsOnly.checked _).bind fun q => ?_
      exact (s.fetch_sendsOnly q (.inl q.select_reads)).bind fun _ => .pure _

/-! ## Runs -/

/-- How a session is used. -/
inductive Use
  /-- It carries out an operation. -/
  | operation (operation : Operation)
  /-- It carries out a statement of the caller. -/
  | run (statement : Statement)
  /-- It carries out a text of the caller. -/
  | raw (text : String)
  /-- It asks for the version of the server. -/
  | serverVersion

/-- The statement that a use is given, or that is the same for all sessions. -/
def Use.given? : Use → Option Statement
  | operation o => o.given?
  | run statement => some statement
  | raw text => some (.command text.toList)
  | serverVersion => some (.command "SELECT version()".toList)

/-- Uses a session. What comes of it is left out, unless it fails. -/
def use (s : Session) : Use → Exchanging Unit
  | .operation o => do let _ ← s.perform o
  | .run statement => do let _ ← s.run statement
  | .raw text => do let _ ← s.raw text
  | .serverVersion => do let _ ← s.serverVersion

/-- The exchange after sessions were used one after the other, whatever came of it. -/
def useAll (uses : List (Session × Use)) (e : Exchange) : Exchange :=
  uses.foldl (fun e u => (u.1.use u.2 e).2) e

/-- A session that only reads sends questions that read, and the statement that it is given. -/
theorem use_sendsOnly {s : Session} (h : s.settings.readonly = true) (u : Use) :
    SendsOnly (fun o => o.statement.Reads ∨ u.given? = some o.statement) (s.use u) := by
  cases u with
  | operation o => exact (perform_sendsOnly h o).bind fun _ => .pure _
  | run statement => exact (s.run_sendsOnly (.inr rfl)).bind fun _ => .pure _
  | raw text =>
    exact ((s.run_sendsOnly (.inr rfl)).bind fun _ => .result _).bind fun _ => .pure _
  | serverVersion =>
    refine SendsOnly.bind (SendsOnly.bind ?_ fun _ => .result _) fun _ => .pure _
    exact (s.run_sendsOnly (.inr rfl)).bind fun _ => .result _

/-- Sessions that only read send nothing but questions that read and the statements that they
    are given, whatever they are used for, one after the other, and whatever is answered. For
    each use there are the orders that it has sent. A use that would write is refused from every
    exchange, and leaves it as it was. -/
theorem useAll_of_readonly (uses : List (Session × Use)) (e : Exchange)
    (h : ∀ u ∈ uses, u.1.settings.readonly = true) :
    (∃ orders : List (List Order), (useAll uses e).sent = e.sent ++ orders.flatten ∧
      List.Forall₂ (fun u sent => ∀ o ∈ sent, o.statement.Reads ∨ u.2.given? = some o.statement)
        uses orders) ∧
      ∀ s operation word, (s, Use.operation operation) ∈ uses → operation.writing? = some word →
        ∀ e, s.use (.operation operation) e =
          (.error (.build (.readOnlyDatabase s.name word)), e) := by
  constructor
  · -- Each use starts from the exchange that the one before it has left.
    induction uses generalizing e with
    | nil => exact ⟨[], (List.append_nil _).symm, .nil⟩
    | cons u uses ih =>
      have hu : u.1.settings.readonly = true := h u List.mem_cons_self
      rcases use_sendsOnly hu u.2 e with ⟨sent, hsent, hall⟩
      rcases ih (u.1.use u.2 e).2 fun v hv => h v (List.mem_cons_of_mem _ hv) with
        ⟨orders, horders, hothers⟩
      refine ⟨sent :: orders, ?_, .cons hall hothers⟩
      rw [List.flatten_cons, ← List.append_assoc, ← hsent]
      exact horders
  · intro s operation word hmem hword e
    rw [use, Exchanging.bind_run, perform_of_writing (h _ hmem) hword]

/-- A table of accounts. -/
def accounts : Model :=
  ⟨"accounts", [{ name := "id", type := .word ⟨false, .w64⟩ }], none, false, rfl⟩

/-- Two sessions that only read are asked to insert no accounts, to count them, to delete them,
    and to carry out a text. -/
def readers : List (Session × Use) :=
  [(⟨.blocking, { Settings.usual with readonly := true }⟩, .operation (.insert [])),
    (⟨.streaming, { Settings.usual with readonly := true }⟩, .operation (.count (.all accounts))),
    (⟨.streaming, { Settings.usual with readonly := true }⟩, .operation (.delete (.all accounts))),
    (⟨.blocking, { Settings.usual with readonly := true }⟩, .raw "OPTIMIZE TABLE accounts")]

/-- The accounts are counted and the text is sent, and the other two are refused. -/
theorem useAll_readers :
    (∀ u ∈ readers, u.1.settings.readonly = true) ∧
      (useAll readers ⟨[], []⟩).sent =
        [⟨.query "SELECT count(*) FROM `accounts`".toList, true⟩,
          ⟨.command "OPTIMIZE TABLE accounts".toList, true⟩] ∧
      (∃ orders : List (List Order), (useAll readers ⟨[], []⟩).sent = [] ++ orders.flatten ∧
        List.Forall₂ (fun u sent => ∀ o ∈ sent, o.statement.Reads ∨ u.2.given? = some o.statement)
          readers orders) ∧
      use ⟨.blocking, { Settings.usual with readonly := true }⟩ (.operation (.insert [])) ⟨[], []⟩ =
        (.error (.build (.readOnlyDatabase "default" "INSERT")), ⟨[], []⟩) := by
  have hreadonly : ∀ u ∈ readers, u.1.settings.readonly = true := by
    intro u hu
    simp only [readers, List.mem_cons, List.not_mem_nil, or_false] at hu
    rcases hu with rfl | rfl | rfl | rfl <;> rfl
  have h := useAll_of_readonly readers ⟨[], []⟩ hreadonly
  exact ⟨hreadonly, rfl, h.1, h.2 _ _ _ List.mem_cons_self rfl _⟩

end Session

end ColumnStore
