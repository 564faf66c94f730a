import ColumnStore.Proofs.Session.Course
import ColumnStore.Proofs.Statement.Insertion

/-!
# What an Insertion Stores

The records that a session inserts arrive: the statements that it sends, read one after
the other as their receiver reads them, hold a row for every record and no other row, in
the order of the records, and every value stands in the column of its field. Each
statement has a row at least and no more than a batch may have.

Documents are the exception. A number in a document that is not whole is written so that
it can be read back, but the reader of documents does not round to the nearest number,
so what the server is told may be another document when it is read.

## Main definitions

* `Response.Accepts`: A response says that a command was carried out.
* `Insertion.rowsOf?`: The rows that a statement inserts.

## Theorems

* `Session.insertBatches_stores`: What the statements of an insertion hold.
* `Session.document_not_stored`: A document that is read back as another one, and a session
  that only reads.
-/

namespace ColumnStore

/-- A response says of any command that it was carried out. -/
def Response.Accepts (mode : Mode) (r : Response) : Prop :=
  ∀ s : Statement, s.returnsRows = false → r.outcome mode s = .ok ()

/-- An answer of no bytes is enough. -/
theorem Response.accepts_answer_nil (mode : Mode) : (Response.answer []).Accepts mode := by
  intro s hs
  have hcursor : (Response.answer []).cursor mode s =
      .ok ⟨none, Body.ofChunks mode [], s.text, true⟩ := by
    simp only [cursor, Cursor.start, hs]
    rfl
  rw [outcome, hcursor]
  cases mode <;> rfl

namespace Exchange

/-- All commands will be carried out. -/
def Accepting (mode : Mode) (e : Exchange) : Prop :=
  ∀ r ∈ e.coming, r.Accepts mode

/-- Commands are carried out one after the other where all of them will be. -/
theorem exists_carries {mode : Mode} {statements : List Statement} {e : Exchange}
    (hstatements : ∀ s ∈ statements, s.returnsRows = false) (h : e.Accepting mode) :
    ∃ e', Carries mode statements e e' := by
  induction statements generalizing e with
  | nil => exact ⟨e, .nil e⟩
  | cons s statements ih =>
    have hnext : e.next.Accepts mode := by
      unfold next
      cases hcoming : e.coming with
      | nil => exact Response.accepts_answer_nil mode
      | cons r coming => exact h r (hcoming ▸ List.mem_cons_self)
    have hlater : (e.advance ⟨s, true⟩).Accepting mode :=
      fun r hr => h r (List.mem_of_mem_tail hr)
    rcases ih (fun t ht => hstatements t (List.mem_cons_of_mem s ht)) hlater with ⟨e', he'⟩
    exact ⟨e', .cons (hnext s (hstatements s List.mem_cons_self)) he'⟩

end Exchange

/-- The rows that a statement inserts into the table of a model. -/
def Insertion.rowsOf? (m : Model) (s : Statement) : Option (List (List (String × Value))) :=
  (read? s.body.toList).bind (values? m)

namespace Session

variable {s : Session} {m : Model} {size : Nat} {records : List Record} {e : Exchange}

/-- Some records of a model are put together to a statement, which inserts a row for each
    of them. -/
theorem exists_rowsOf? (hm : m.readonly = false) (hfield : m.insertable ≠ [])
    (hfit : ∀ f ∈ m.insertable, f.type.decimalsFit = true) (hne : records ≠ [])
    (hsame : ∀ r ∈ records, r.model.same m = true) (haccept : ∀ r ∈ records, r.Accepted) :
    m.insert records = .ok (.command (m.insertionText records)) ∧
      ∃ rows, Insertion.rowsOf? m (.command (m.insertionText records)) = some rows ∧
        List.Forall₂ Record.IsStoredAs records rows := by
  have hrows : records.mapM m.rowSql = .ok (records.map Record.rowText) :=
    mapM_eq_pure fun r hr => Model.rowSql_of_accepted (hsame r hr) (haccept r hr)
  rcases Insertion.exists_values? hsame haccept hfit with ⟨rows, hvalues, hstored⟩
  refine ⟨Model.insert_eq_ok_iff.2 ⟨hm, hne, _, hrows, rfl⟩, rows, ?_, hstored⟩
  have hbody : (Statement.command (m.insertionText records)).body.toList =
      m.insertionText records := String.toList_ofList
  rw [Insertion.rowsOf?, hbody, Insertion.read?_insertionText hfield, Option.bind_some, hvalues]

/-- The same for batches: their rows, one after the other, are those of all records. -/
theorem exists_rowsOf?_of_batches {batches : List (List Record)} (hm : m.readonly = false)
    (hfield : m.insertable ≠ []) (hfit : ∀ f ∈ m.insertable, f.type.decimalsFit = true)
    (hlength : ∀ b ∈ batches, 1 ≤ b.length ∧ b.length ≤ size)
    (hsame : ∀ r ∈ batches.flatten, r.model.same m = true)
    (haccept : ∀ r ∈ batches.flatten, r.Accepted) :
    ∃ statements rows, batches.mapM m.insert = .ok statements ∧
      (∀ statement ∈ statements, statement.returnsRows = false) ∧
      List.Forall₂ (fun statement rs => Insertion.rowsOf? m statement = some rs ∧
        1 ≤ rs.length ∧ rs.length ≤ size) statements rows ∧
      List.Forall₂ Record.IsStoredAs batches.flatten rows.flatten := by
  induction batches with
  | nil => exact ⟨[], [], rfl, by simp, .nil, .nil⟩
  | cons b batches ih =>
    rw [List.flatten_cons] at hsame haccept
    have hb := hlength b List.mem_cons_self
    have hne : b ≠ [] := by
      rintro rfl
      simp at hb
    rcases exists_rowsOf? hm hfield hfit hne (fun r hr => hsame r (List.mem_append_left _ hr))
      (fun r hr => haccept r (List.mem_append_left _ hr)) with ⟨hinsert, rs, hread, hstored⟩
    rcases ih (fun b' hb' => hlength b' (List.mem_cons_of_mem b hb'))
      (fun r hr => hsame r (List.mem_append_right _ hr))
      (fun r hr => haccept r (List.mem_append_right _ hr))
      with ⟨statements, rows, hinserts, hcommands, hreads, hall⟩
    refine ⟨_ :: statements, rs :: rows, statements_cons.2 ⟨_, statements, hinsert, hinserts, rfl⟩,
      ?_, .cons ⟨hread, by rwa [← hstored.length_eq]⟩ hreads, ?_⟩
    · intro statement hmem
      rcases List.mem_cons.1 hmem with rfl | hmem
      · rfl
      · exact hcommands statement hmem
    · rw [List.flatten_cons, List.flatten_cons]
      exact List.rel_append hstored hall

/-- What a session that may write inserts of records of a model arrives. The first record
    says which model it is, and the others are of it if they are of models defined alike.
    The number of records is returned, and the statements that are sent hold between one
    row and as many as a batch may have. Each row is read with the types of the columns
    that its statement names, and the rows of all statements in the order in which they
    are sent are the records in their order, with every value in its column. -/
theorem insertBatches_stores (hwritable : s.settings.readonly = false) (hsize : 0 < size)
    (hm : m.readonly = false) (hfield : m.insertable ≠ [])
    (hfit : ∀ f ∈ m.insertable, f.type.decimalsFit = true)
    (hfirst : ∀ r ∈ records.head?, r.model = m) (hsame : ∀ r ∈ records, r.model.same m = true)
    (haccept : ∀ r ∈ records, r.Accepted) (hanswer : e.Accepting s.mode) :
    ∃ statements rows e', s.insertBatches size records e = (.ok records.length, e') ∧
      e'.sent = e.sent ++ statements.map (fun statement => ⟨statement, true⟩) ∧
      List.Forall₂ (fun statement rs => Insertion.rowsOf? m statement = some rs ∧
        1 ≤ rs.length ∧ rs.length ≤ size) statements rows ∧
      List.Forall₂ Record.IsStoredAs records rows.flatten := by
  cases size with
  | zero => omega
  | succ n =>
    cases records with
    | nil => exact ⟨[], [], e, insertBatches_nil hwritable n e, by simp, .nil, .nil⟩
    | cons r rs =>
      obtain rfl := hfirst r rfl
      -- The batches one after the other are the records.
      have hflatten := flatten_pieces n (r :: rs)
      rw [← hflatten] at hsame haccept
      rcases exists_rowsOf?_of_batches hm hfield hfit (length_of_mem_pieces n (r :: rs)) hsame
        haccept with ⟨statements, rows, hinserts, hcommands, hreads, hstored⟩
      rcases Exchange.exists_carries hcommands hanswer with ⟨e', hcarries⟩
      refine ⟨statements, rows, e', ?_, hcarries.sent_eq, hreads, by rwa [hflatten] at hstored⟩
      rw [insertBatches_cons hwritable, forM_insertBatch_of_carries hinserts hcarries]

/-- A model of visits. One of its fields is not written, and one is stored in a column of
    another name. -/
def visits : Model :=
  ⟨"visits",
    [{ name := "id", type := .uuid },
      { name := "at", type := .dateTime64 3 none },
      { name := "day", type := .date, readMark := true },
      { name := "path", type := .array (.tuple [(none, .string), (some "n", .nullable .float64)]) },
      { name := "host", type := .ipv6, stored := some "from \x60host\x60" },
      { name := "extra", type := .json }],
    none, false, rfl⟩

/-- A visit with quotes and brackets in its path, and places that its instant loses. -/
def firstVisit : Record :=
  ⟨visits,
    [.uuid ⟨0x123e4567e89b12d3a456426614174000⟩,
      .dateTime ⟨1699999999, 987654321, by decide, by decide⟩, .date Date.epoch,
      .array [.tuple [.string "it's [NULL], \\",
          .float (.finite false ⟨0x3FB999999999999A, by decide⟩)],
        .tuple [.string "", .null]],
      .ipv6 ⟨0x20010db8000000000000000000000001⟩,
      .json (.object [("a", .array [.whole 1, .null])])],
    rfl⟩

/-- Three visits in batches of two are stored, the third one in a statement of its own. -/
theorem visits_stored :
    ∃ statements rows e', (Session.mk .streaming .usual).insertBatches 2
        [firstVisit, .new visits, firstVisit] ⟨[], [.answer []]⟩ = (.ok 3, e') ∧
      e'.sent = [] ++ statements.map (fun statement => ⟨statement, true⟩) ∧
      List.Forall₂ (fun statement rs => Insertion.rowsOf? visits statement = some rs ∧
        1 ≤ rs.length ∧ rs.length ≤ 2) statements rows ∧
      List.Forall₂ Record.IsStoredAs [firstVisit, .new visits, firstVisit] rows.flatten :=
  insertBatches_stores rfl (by decide) rfl (by decide) (by decide)
    (fun r hr => by cases hr; rfl) (by decide +kernel) (by decide +kernel)
    (fun r hr => by
      rw [List.mem_singleton.1 hr]
      exact Response.accepts_answer_nil .streaming)

/-- A model of one field of documents. -/
def documents : Model :=
  ⟨"d", [{ name := "x", type := .json }], none, false, rfl⟩

/-- The number whose shortest decimal is `9.999999999999999e-26`. The reader of documents
    divides `10 ^ 16` by `10 ^ 41` for it, which is nearer to the next number. -/
def roundedTwice : Binary64 :=
  .finite false ⟨0x3abef2d0f5da7dd8, by decide⟩

/-- A document of that number. -/
def document : Record :=
  ⟨documents, [.json (.real roundedTwice)], rfl⟩

/-- A document that its field takes and that is sent to a server that carries out the
    statement, but is read back as another one; and a session that only reads, which
    inserts nothing, whatever the server would do. -/
theorem document_not_stored :
    documents.readonly = false ∧ documents.insertable ≠ [] ∧
      ColumnType.json.accept (.json (.real roundedTwice)) = .ok (.json (.real roundedTwice)) ∧
      (Session.mk .blocking .usual).insertBatches 1 [document] {} =
        (.ok 1, ⟨[⟨.command (documents.insertionText [document]), true⟩], []⟩) ∧
      (¬ ∃ rows, Insertion.rowsOf? documents (.command (documents.insertionText [document])) =
          some rows ∧ List.Forall₂ Record.IsStoredAs [document] rows) ∧
      (Session.mk .blocking { Settings.usual with readonly := true }).insertBatches 1
          [Record.new documents] {} =
        (.error (.build (.readOnlyDatabase Settings.usual.database "INSERT")), {}) := by
  -- What the statement holds is computed, and it is not the number.
  have hread : (Insertion.rowsOf? documents (.command (documents.insertionText [document]))).any
      (fun rows => rows.any fun row => row.any fun u => u.2.same (.json (.real roundedTwice))) =
        false := by
    decide +kernel
  refine ⟨rfl, by decide, rfl, ?_, ?_, insertBatches_of_readonly rfl 1 _ _⟩
  · have hpieces : pieces 0 [document] = [[document]] := by
      simp only [pieces, List.take_zero, List.drop_zero]
    rw [insertBatches_cons rfl, hpieces]
    rfl
  · rintro ⟨rows, hrows, hstored⟩
    cases hstored with
    | cons hrow hrest =>
      cases hrow with
      | cons hcell hcells =>
        rw [hrows] at hread
        simp only [Option.any_some, List.any_cons, Bool.or_eq_false_iff] at hread
        exact absurd (hread.1.1.symm.trans hcell.2) (by decide)

end Session

end ColumnStore
