import ColumnStore.Model.Basic

/-!
# Records

A record is one row of a model: a value for each of its fields. A value that is
set is first turned into a value of the type of its field, and a value that the
type refuses leaves the record as it was.

## Main definitions

* `Record`: The values of the fields of a model.
* `Record.new`: The record of which nothing is known.
* `Record.set`, `Record.get?`, `Record.getAs`: Access to a field by name.
* `Record.literals`: The literals of the fields that are inserted.
-/

namespace ColumnStore

/-- One row of a model. -/
structure Record where
  /-- The model of the row. -/
  model : Model
  /-- The values of the fields, in their order. -/
  values : List Value
  /-- There is one value for each field. -/
  length_values : values.length = model.fields.length

namespace Record

/-- The record of which nothing is known. -/
def new (m : Model) : Record :=
  ⟨m, m.fields.map Field.default, by simp⟩

/-- The fields with their values. -/
def pairs (r : Record) : List (Field × Value) :=
  r.model.fields.zip r.values

/-- The value at the position of a field. -/
def valueAt (r : Record) (i : Fin r.model.fields.length) : Value :=
  r.values.get (i.cast r.length_values.symm)

/-- The record with another value at the position of a field. -/
def replace (r : Record) (i : Fin r.model.fields.length) (v : Value) : Record :=
  ⟨r.model, r.values.set i.val v, by simp [r.length_values]⟩

/-- The position of a field, or a refusal of its name. -/
def index (r : Record) (name : String) : Except Fault (Fin r.model.fields.length) :=
  match r.model.fieldIndex? name with
  | some i => .ok i
  | none => .error (.noSuchField r.model.table name)

/-- The record with another value of a field. -/
def set (r : Record) (name : String) (v : Value) : Except Fault Record := do
  let i ← r.index name
  let w ← (r.model.fields.get i).accept v
  pure (r.replace i w)

/-- The value of a field, if there is such a field. -/
def get? (r : Record) (name : String) : Option Value :=
  (r.model.fieldIndex? name).map r.valueAt

/-- The value of a field converted to a target. -/
def getAs (r : Record) (name : String) (target : Target) : Except Failure Value := do
  let i ← (r.index name).mapError .build
  let v := r.valueAt i
  match v.to? target with
  | some w => pure w
  | none =>
    throw (.decode (r.model.fields.get i).column none (.conversion v.kind target) none)

/-- The literals of the fields that are inserted, in their order. -/
def literals (r : Record) : Except Fault (List (List Char)) :=
  (r.pairs.filter fun p => !p.1.readonly).mapM fun p => p.1.encode p.2

end Record

end ColumnStore
