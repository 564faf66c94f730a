import ColumnStore.Engine
import ColumnStore.Field

/-!
# Models

A model describes a table: its name, its fields in order, and its engine. A
model exists only if it is sound, that is, if it has a name and fields, its
fields are sound, and no two of them share a name or a column. Whoever holds a
model need not ask again.

## Main definitions

* `Model`: A sound description of a table.
* `Model.build`: The model of some fields, or the first fault.
* `Model.field?`, `Model.columnIndex?`: Fields by name and by column.
* `Model.same`: Whether two models are defined alike.

## Theorems

* `check_of_mem`: Every field of a model is sound.
* `nodup_names`, `nodup_columns`: No two fields share a name or a column.
-/

namespace ColumnStore

/-- Refuses fields that no model can have, given those before them. -/
def Model.checkFields (table : String) (seen : List Field) : List Field → Except Fault Unit
  | [] => .ok ()
  | f :: fs => do
    f.check
    if seen.any fun g => g.name = f.name then throw (.duplicateField table f.name)
    if seen.any fun g => g.column = f.column then throw (.duplicateColumn table f.column)
    checkFields table (f :: seen) fs

/-- Refuses a name and fields that no model can have. -/
def Model.check (table : String) (fields : List Field) : Except Fault Unit := do
  if table = "" then throw .emptyTable
  if fields.isEmpty then throw (.noFields table)
  checkFields table [] fields

/-- The description of a table. -/
structure Model where
  /-- The name of the table. -/
  table : String
  /-- The fields in the order in which they were declared. -/
  fields : List Field
  /-- The engine of the table, where the table is to be created. -/
  engine : Option Engine
  /-- Whether the model is marked as only read. -/
  readMark : Bool
  /-- Nothing is wrong with the description. -/
  sound : Model.check table fields = .ok ()

namespace Model

/-- The model of some fields, or the first fault. -/
def build (table : String) (fields : List Field) (engine : Option Engine) (readMark : Bool) :
    Except Fault Model :=
  match h : check table fields with
  | .ok () => .ok ⟨table, fields, engine, readMark, h⟩
  | .error e => .error e

/-- Whether the model is only read, because it is marked so or because its
    engine takes no rows. -/
def readonly (m : Model) : Bool :=
  m.readMark || m.engine.any fun e => !e.writable

/-- The position of the field of a name. -/
def fieldIndex? (m : Model) (name : String) : Option (Fin m.fields.length) :=
  m.fields.findFinIdx? fun f => f.name = name

/-- The position of the field that is stored in a column. -/
def columnIndex? (m : Model) (column : String) : Option (Fin m.fields.length) :=
  m.fields.findFinIdx? fun f => f.column = column

/-- The field of a name. -/
def field? (m : Model) (name : String) : Option Field :=
  m.fields.find? fun f => f.name = name

/-- The fields that are written when a record is inserted. -/
def insertable (m : Model) : List Field :=
  m.fields.filter fun f => !f.readonly

/-- Equality of lists, given one of their items. -/
def listAgrees {α : Type} (agrees : α → α → Bool) : List α → List α → Bool
  | [], [] => true
  | x :: xs, y :: ys => agrees x y && listAgrees agrees xs ys
  | _, _ => false

/-- Whether two tables of the merge family are defined alike. -/
def mergeTreeSame (a b : MergeTree) : Bool :=
  a.rule = b.rule && listAgrees Expr.same a.partitionKey b.partitionKey
    && listAgrees Expr.same a.sortKey b.sortKey && listAgrees Expr.same a.primaryKey b.primaryKey
    && Field.optionAgrees Expr.same a.sampleKey b.sampleKey
    && a.settings = b.settings && a.replica = b.replica

/-- Whether two engines are defined alike. -/
def engineSame : Engine → Engine → Bool
  | .tinyLog, .tinyLog => true
  | .log, .log => true
  | .memory, .memory => true
  | .mergeTree a, .mergeTree b => mergeTreeSame a b
  | .union p, .union q => p = q
  | .buffer a, .buffer b => a = b
  | .distributed c t k, .distributed c' t' k' =>
    c = c' && t = t' && Field.optionAgrees Expr.same k k'
  | _, _ => false

/-- Whether two models are defined alike. -/
def same (m n : Model) : Bool :=
  m.table = n.table && listAgrees Field.same m.fields n.fields
    && Field.optionAgrees engineSame m.engine n.engine && m.readonly = n.readonly

/-- What acceptance says of the first field, and that it goes on with the others. -/
theorem checkFields_cons {table : String} {seen fs : List Field} {f : Field}
    (h : checkFields table seen (f :: fs) = .ok ()) :
    f.check = .ok () ∧ (∀ g ∈ seen, g.name ≠ f.name) ∧ (∀ g ∈ seen, g.column ≠ f.column) ∧
      checkFields table (f :: seen) fs = .ok () := by
  simp only [checkFields] at h
  cases hc : f.check with
  | error e => simp [hc, bind, Except.bind] at h
  | ok u =>
    simp only [hc, bind, Except.bind] at h
    by_cases hn : seen.any fun g => g.name = f.name
    · simp [hn, throw, throwThe, MonadExceptOf.throw] at h
    · by_cases hs : seen.any fun g => g.column = f.column
      · simp [hn, hs, throw, throwThe, MonadExceptOf.throw] at h
      · simp_all

/-- Accepted fields are sound one by one, and share neither a name nor a column
    with each other or with those before them. -/
theorem of_checkFields {table : String} {seen fs : List Field}
    (h : checkFields table seen fs = .ok ()) :
    (∀ f ∈ fs, f.check = .ok ()) ∧
      (∀ f ∈ fs, ∀ g ∈ seen, g.name ≠ f.name ∧ g.column ≠ f.column) ∧
      (fs.map Field.name).Nodup ∧ (fs.map Field.column).Nodup := by
  -- Induction on the fields, with those that were accepted before them.
  induction fs generalizing seen with
  | nil => simp
  | cons f fs ih =>
    obtain ⟨hf, hn, hc, hr⟩ := checkFields_cons h
    obtain ⟨hall, hseen, hnames, hcolumns⟩ := ih hr
    refine ⟨?_, ?_, ?_, ?_⟩
    · intro g hg
      rcases List.mem_cons.1 hg with rfl | hg
      · exact hf
      · exact hall g hg
    · intro g hg k hk
      rcases List.mem_cons.1 hg with rfl | hg
      · exact ⟨hn k hk, hc k hk⟩
      · exact hseen g hg k (List.mem_cons_of_mem f hk)
    · refine List.nodup_cons.2 ⟨fun hm => ?_, hnames⟩
      obtain ⟨g, hg, he⟩ := List.mem_map.1 hm
      exact (hseen g hg f List.mem_cons_self).1 he.symm
    · refine List.nodup_cons.2 ⟨fun hm => ?_, hcolumns⟩
      obtain ⟨g, hg, he⟩ := List.mem_map.1 hm
      exact (hseen g hg f List.mem_cons_self).2 he.symm

/-- The fields of a model were accepted after its name was. -/
theorem checkFields_fields (m : Model) : checkFields m.table [] m.fields = .ok () := by
  have h := m.sound
  simp only [check] at h
  by_cases ht : m.table = ""
  · simp [ht, throw, throwThe, MonadExceptOf.throw, bind, Except.bind] at h
  · by_cases hf : m.fields.isEmpty
    · simp [ht, hf, throw, throwThe, MonadExceptOf.throw, bind, Except.bind] at h
    · simpa [ht, hf, bind, Except.bind, pure, Except.pure] using h

/-- Every field of a model is sound. -/
theorem check_of_mem (m : Model) {f : Field} (h : f ∈ m.fields) : f.check = .ok () :=
  (of_checkFields m.checkFields_fields).1 f h

/-- No two fields of a model share a name. -/
theorem nodup_names (m : Model) : (m.fields.map Field.name).Nodup :=
  (of_checkFields m.checkFields_fields).2.2.1

/-- No two fields of a model share a column. -/
theorem nodup_columns (m : Model) : (m.fields.map Field.column).Nodup :=
  (of_checkFields m.checkFields_fields).2.2.2

end Model

end ColumnStore
