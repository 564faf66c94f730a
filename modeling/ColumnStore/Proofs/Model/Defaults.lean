import ColumnStore.Proofs.ColumnType.Native
import ColumnStore.Proofs.Model.Setting
import ColumnStore.Proofs.Result.Selection

/-!
# Defaults in Records

A field that was never given a value has its default. A record of which nothing is known has
it in every field, and a record that is made of a row has it in each field that has no column
in the row. When a model is built, the constant of a field is accepted by its type once, but
what the type makes of it is dropped, and the constant itself is what records are filled with.
The same constant is converted when it is set. So a field that was left alone and one that was
set to its own default hold the same value exactly if the constant is of the kind of the type.

What is written does not show the difference, since the constant is converted at last when it
is inserted. Only a day before 1970 is taken in the place of a point in time and refused when
the record that has been set to it is written.

## Main definitions

* `Field.hasNativeDefault`: A field without a constant, or with one of the kind of its type.
* `Model.defaultCalls`: The calls that set every field to its default.
* `Record.sets`: The record after some calls, none of which is refused.

## Theorems

* `Field.same_kept_default`: Whether converting a default changes it.
* `Record.get?_of_row`: A field without a column in a row has its default.
* `Record.get?_set`: A field has what it was set to.
* `Record.sets_defaultCalls`, `Record.literals_defaultCalls`: A record in which every field was
  set to its default, and what is written of it.
* `Record.defaults_as_given`: Defaults that were left alone, that were set, and that were read
  back.
* `Record.count_left_as_given`: A default that is left alone and is another one when it is set.
-/

namespace ColumnStore

namespace Field

/-- Whether the constant of a field is of the kind of its type, if the field has one. -/
def hasNativeDefault (f : Field) : Bool :=
  match f.fallback with
  | some (.value d) => f.type.isNative d
  | _ => true

theorem isNative_default {f : Field} (h : f.check = .ok ()) :
    f.type.isNative f.default = f.hasNativeDefault := by
  have htype := ColumnType.isNative_default (of_check h).1
  unfold default hasNativeDefault
  cases f.fallback with
  | none => exact htype
  | some fallback =>
    cases fallback with
    | value d => rfl
    | expr e => exact htype

theorem converts_default {f : Field} (h : f.check = .ok ()) :
    f.type.Converts f.default (f.kept f.default) := by
  rcases accept_default h with ⟨w, hw⟩
  rw [kept, hw]
  exact ColumnType.converts_of_acceptAs f.type hw

/-- What becomes of a default is the same value if it is of the kind of the type. -/
theorem same_kept_default {f : Field} (h : f.check = .ok ()) :
    (f.kept f.default).same f.default = f.hasNativeDefault :=
  (converts_default h).same.trans (isNative_default h)

theorem hasEarlyDay_default {f : Field} (h : f.check = .ok ())
    (hnative : f.hasNativeDefault = true) : f.type.hasEarlyDay f.default = false :=
  ColumnType.hasEarlyDay_of_isNative f.type ((isNative_default h).trans hnative)

end Field

namespace Model

/-- The calls that set every field to its default. -/
def defaultCalls (m : Model) : List (String × Value) :=
  m.fields.map fun f => (f.name, f.default)

/-- The last value that each field takes then is its default. -/
theorem lastTaken_defaultCalls {m : Model} {f : Field} (hf : f ∈ m.fields) :
    f.lastTaken m.defaultCalls = some f.default := by
  unfold Field.lastTaken
  cases hfind : m.defaultCalls.reverse.find? f.takes with
  | none =>
    -- The call for the field itself is taken.
    have hcall : (f.name, f.default) ∈ m.defaultCalls.reverse :=
      List.mem_reverse.2 (List.mem_map_of_mem hf)
    have htakes : f.takes (f.name, f.default) = true :=
      Field.takes_iff.2 ⟨rfl, Field.accept_default (m.check_of_mem hf)⟩
    exact absurd htakes (List.find?_eq_none.1 hfind _ hcall)
  | some call =>
    have htakes := Field.takes_iff.1 (List.find?_some hfind)
    rcases List.mem_map.1 (List.mem_reverse.1 (List.mem_of_find?_eq_some hfind)) with ⟨g, hg, rfl⟩
    rw [List.inj_on_of_nodup_map m.nodup_names hf hg htakes.1]
    rfl

end Model

namespace Places

variable {m : Model}

/-- Cells are set in their own places only. -/
theorem getElem?_fill {cells : List (Fin m.fields.length × Option (List Char))}
    {values result : List Value} (h : fill m cells values = .ok result) {i : Fin m.fields.length}
    (hi : i ∉ cells.map Prod.fst) : result[i.val]? = values[i.val]? := by
  induction cells generalizing values with
  | nil =>
    rw [fill, Except.ok.injEq] at h
    rw [h]
  | cons c cells ih =>
    rw [List.map_cons, List.mem_cons, not_or] at hi
    rw [fill] at h
    rcases of_bind_eq_ok h with ⟨v, -, hrest⟩
    rw [ih hrest hi.2, List.getElem?_set_ne fun hsame => hi.1 (Fin.ext hsame.symm)]

/-- The places for a header are in its model, each at a column that the header names. -/
theorem of_ofHeader {h : Header} {p : Places} (hp : ofHeader m h = .ok p) :
    ∃ is, p = ⟨m, is⟩ ∧ ∀ i ∈ is, (m.fields.get i).column ∈ h.names := by
  rcases of_bind_eq_ok hp with ⟨is, his, hpure⟩
  cases hpure
  refine ⟨is, rfl, fun i hi => ?_⟩
  rcases (mem_of_mapM his).1 i hi with ⟨column, hcolumn, hfind⟩
  unfold find Model.columnIndex? at hfind
  split at hfind
  · next j hj =>
    cases hfind
    have hsame := (List.findFinIdx?_eq_some_iff.1 hj).1
    simp only [decide_eq_true_eq] at hsame
    exact (hsame : (m.fields.get i).column = column) ▸ hcolumn
  · cases hfind

end Places

namespace Record

variable {m : Model} {f : Field}

theorem get?_eq_getElem? (r : Record) (hf : f ∈ r.model.fields) :
    ∃ i, r.model.fields.get i = f ∧ r.model.fieldIndex? f.name = some i ∧
      r.get? f.name = r.values[i.val]? := by
  rcases Model.fieldIndex?_name hf with ⟨i, hindex, hget⟩
  refine ⟨i, hget, hindex, ?_⟩
  rw [get?, hindex, Option.map_some, valueAt, List.get_eq_getElem]
  exact (List.getElem?_eq_getElem _).symm

/-- A field has its value by its name. -/
theorem get?_of_values {r : Record} {held : Field → Value} (h : r.values = r.model.fields.map held)
    (hf : f ∈ r.model.fields) : r.get? f.name = some (held f) := by
  rcases r.get?_eq_getElem? hf with ⟨i, hget, -, hvalue⟩
  rw [hvalue, h, List.getElem?_map, ← hget]
  simp

/-- A field without a column in a row has its default. -/
theorem get?_of_row {h : Header} {p : Places} {cells : Cells} {r : Record}
    (hp : Places.ofHeader m h = .ok p) (hr : p.record cells = .ok r) (hf : f ∈ m.fields)
    (hcolumn : f.column ∉ h.names) : r.get? f.name = some f.default := by
  rcases Places.of_ofHeader hp with ⟨is, rfl, hnames⟩
  rcases Places.record_eq_ok_iff.1 hr with ⟨hmodel, hfill⟩
  rcases r with ⟨m', values, hlength⟩
  cases hmodel
  rcases get?_eq_getElem? ⟨m, values, hlength⟩ hf with ⟨i, rfl, -, hvalue⟩
  have hplace : i ∉ (is.zip cells).map Prod.fst := by
    intro hi
    rcases List.mem_map.1 hi with ⟨c, hc, rfl⟩
    exact hcolumn (hnames _ (List.of_mem_zip hc).1)
  rw [hvalue, Places.getElem?_fill hfill hplace]
  simp

/-- A field has what its type made of the value to which it was set. -/
theorem get?_set {r : Record} (hf : f ∈ r.model.fields) {v w : Value}
    (hw : f.type.accept v = .ok w) :
    ∃ r', r.set f.name v = .ok r' ∧ r'.model = r.model ∧ r'.get? f.name = some w := by
  rcases r.get?_eq_getElem? hf with ⟨i, rfl, hindex, -⟩
  refine ⟨r.replace i w, ?_, rfl, ?_⟩
  · rw [set, index, hindex]
    show (do let w ← (r.model.fields.get i).accept v; pure (r.replace i w)) = _
    rw [Field.accept, hw]
    rfl
  · have hvalue : (r.replace i w).get? _ = some ((r.replace i w).valueAt i) :=
      congrArg (Option.map (r.replace i w).valueAt) hindex
    exact hvalue.trans (congrArg some (List.getElem_set_self _))

/-- The record after some calls, of which none may be refused. -/
def sets (r : Record) (calls : List (String × Value)) : Except Fault Record :=
  calls.foldlM (fun r call => r.set call.1 call.2) r

/-- Calls that are all taken are all carried out. -/
theorem sets_eq_trySets {r : Record} {calls : List (String × Value)}
    (h : ∀ call ∈ calls, ∃ f ∈ r.model.fields, f.takes call = true) :
    r.sets calls = .ok (r.trySets calls) := by
  induction calls generalizing r with
  | nil => rfl
  | cons call calls ih =>
    rcases h call List.mem_cons_self with ⟨f, hf, htakes⟩
    rcases Field.takes_iff.1 htakes with ⟨hname, w, haccept⟩
    rcases get?_set hf haccept with ⟨r', hset, hmodel, -⟩
    rw [hname] at hset
    have htry : r.trySet call = r' := by
      rw [trySet, hset]
      rfl
    have hrest := ih (r := r') fun c hc => hmodel ▸ h c (List.mem_cons_of_mem call hc)
    rw [sets, List.foldlM_cons, hset, trySets, List.foldl_cons, htry]
    exact hrest

/-- Setting every field to its default is not refused, and each holds what its type makes of it. -/
theorem sets_defaultCalls (m : Model) :
    (new m).sets m.defaultCalls = .ok ((new m).trySets m.defaultCalls) ∧
      ((new m).trySets m.defaultCalls).values = m.fields.map fun f => f.kept f.default := by
  constructor
  · refine sets_eq_trySets fun call hcall => ?_
    rcases List.mem_map.1 hcall with ⟨f, hf, rfl⟩
    exact ⟨f, hf, Field.takes_iff.2 ⟨rfl, Field.accept_default (m.check_of_mem hf)⟩⟩
  · rw [(values_trySets m m.defaultCalls).2]
    refine List.map_congr_left fun f hf => ?_
    rw [Field.heldAfter, Model.lastTaken_defaultCalls hf]
    rfl

/-- Two lists of what fields hold agree if each field holds the same in both. -/
theorem listAgrees_map {held held' : Field → Value} {native : Field → Bool} {fs : List Field}
    (h : ∀ f ∈ fs, (held f).same (held' f) = native f) :
    Model.listAgrees Value.same (fs.map held) (fs.map held') = fs.all native := by
  induction fs with
  | nil => rfl
  | cons f fs ih =>
    rw [List.map_cons, List.map_cons, Model.listAgrees, List.all_cons, h f List.mem_cons_self,
      ih fun g hg => h g (List.mem_cons_of_mem f hg)]

/-- What was set is written as the default that was left alone is, unless it has an early day. -/
theorem literals_defaultCalls (m : Model) :
    (new m).literals = .ok (m.insertable.map fun f => f.type.sqlOf (f.kept f.default)) ∧
      (((new m).trySets m.defaultCalls).literals =
          .ok (m.insertable.map fun f => f.type.sqlOf (f.kept f.default)) ↔
        ∀ f ∈ m.insertable, f.type.hasEarlyDay f.default = false) := by
  have hmem : ∀ f ∈ m.insertable, f ∈ m.fields := fun f => List.mem_of_mem_filter
  have htexts : (m.insertable.map fun f => f.type.sqlOf (f.kept (f.givenAfter m.defaultCalls))) =
      m.insertable.map fun f => f.type.sqlOf (f.kept f.default) := by
    refine List.map_congr_left fun f hf => ?_
    rw [Field.givenAfter, Model.lastTaken_defaultCalls (hmem f hf), Option.getD_some]
  constructor
  · -- No field took anything before the first call.
    exact (literals_trySets_eq_ok_iff m []).2 fun f _ => rfl
  · rw [← htexts, literals_trySets_eq_ok_iff]
    refine forall₂_congr fun f hf => ?_
    rw [Field.hasEarlyDay, Model.lastTaken_defaultCalls (hmem f hf), Option.any_some]

/-- What is written of a default is read back as what was made of it, and as the default itself
    if that is of the kind of the type. -/
theorem decodeSql_default (hf : f.check = .ok ()) (hfit : f.type.decimalsFit = true)
    (hlasting : (f.kept f.default).isLasting = true) :
    ∃ u, f.type.decodeSql (f.type.sqlOf (f.kept f.default)) = .ok u ∧
      u.same (f.type.norm (f.kept f.default)) = true ∧
      (f.hasNativeDefault = true → u.same (f.type.norm f.default) = true) := by
  rcases Field.accept_default hf with ⟨w, hw⟩
  have hkept : f.kept f.default = w := by rw [Field.kept, hw]
  rw [← hkept] at hw
  rw [← Value.isLegible_eq_isLasting] at hlasting
  rcases (ColumnType.returns_of_acceptAs f.type hfit hw hlasting).decodeSql_sqlOf with
    ⟨u, hread, hsame⟩
  refine ⟨u, hread, hsame, fun hnative => ?_⟩
  have hnorm := (Field.converts_default hf).norm ((Field.isNative_default hf).trans hnative)
  exact (hnorm _ u).symm.trans hsame

/-- A field that is left alone holds its default as it was given, in a new record and in one of
    a row without its column. Setting the default is not refused and stores what the type makes
    of it, which is the same value exactly if the default is of the kind of the type. Both are
    written alike, but for days before 1970 in the place of points in time, which are refused
    if they were set. What is written is read back as what was stored, but for the places of
    instants and the ends of texts of a number of bytes, and so as the default if it is of the
    kind of the type. -/
theorem defaults_as_given (m : Model) :
    (∀ f ∈ m.fields,
      (∀ d, f.fallback = some (.value d) → f.default = d) ∧
      (new m).get? f.name = some f.default ∧
      (∀ h p, Places.ofHeader m h = .ok p → f.column ∉ h.names → ∀ cells r,
        p.record cells = .ok r → r.get? f.name = some f.default) ∧
      (∀ r : Record, r.model = m → ∃ r', r.set f.name f.default = .ok r' ∧
        r'.get? f.name = some (f.kept f.default)) ∧
      (f.kept f.default).same f.default = f.hasNativeDefault ∧
      (f.hasNativeDefault = true → f.type.hasEarlyDay f.default = false)) ∧
    ∃ r texts, (new m).sets m.defaultCalls = .ok r ∧
      r.values = (m.fields.map fun f => f.kept f.default) ∧
      Model.listAgrees Value.same r.values (new m).values = m.fields.all Field.hasNativeDefault ∧
      (new m).literals = .ok texts ∧
      (r.literals = .ok texts ↔ ∀ f ∈ m.insertable, f.type.hasEarlyDay f.default = false) ∧
      List.Forall₂ (fun f text => f.type.decimalsFit = true →
        (f.kept f.default).isLasting = true → ∃ u, f.type.decodeSql text = .ok u ∧
          u.same (f.type.norm (f.kept f.default)) = true ∧
          (f.hasNativeDefault = true → u.same (f.type.norm f.default) = true))
        m.insertable texts := by
  have hcheck : ∀ f ∈ m.fields, f.check = .ok () := fun f hf => m.check_of_mem hf
  constructor
  · intro f hf
    refine ⟨?_, get?_of_values (r := new m) rfl hf, fun h p hp hcolumn cells r hr => ?_,
      fun r hmodel => ?_, Field.same_kept_default (hcheck f hf),
      Field.hasEarlyDay_default (hcheck f hf)⟩
    · intro d hd
      rw [Field.default, hd]
    · exact get?_of_row hp hr hf hcolumn
    · subst hmodel
      rcases Field.accept_default (hcheck f hf) with ⟨w, hw⟩
      rcases get?_set hf hw with ⟨r', hset, -, hget⟩
      exact ⟨r', hset, by rw [hget, Field.kept, hw]⟩
  · rcases sets_defaultCalls m with ⟨hsets, hvalues⟩
    rcases literals_defaultCalls m with ⟨hnew, hset⟩
    refine ⟨_, _, hsets, hvalues, ?_, hnew, hset, ?_⟩
    · rw [hvalues]
      exact listAgrees_map fun f hf => Field.same_kept_default (hcheck f hf)
    · refine List.forall₂_map_right_iff.2 (List.forall₂_same.2 fun f hf => ?_)
      exact decodeSql_default (hcheck f (List.mem_of_mem_filter hf))

/-- A count with a default that was given as an integer with a sign. -/
def counts : Model :=
  ⟨"counts", [{ name := "n", type := .word ⟨false, .w8⟩, fallback := some (.value (.int 5)) }],
    none, false, rfl⟩

/-- The count of a new record has a sign, and the one that is set to the same default has none. -/
theorem count_left_as_given :
    (new counts).get? "n" = some (.int 5) ∧
      (∃ r, (new counts).set "n" (.int 5) = .ok r ∧ r.get? "n" = some (.uint 5)) ∧
      (Value.uint 5).same (.int 5) = false :=
  ⟨rfl, ⟨_, rfl, rfl⟩, rfl⟩

end Record

end ColumnStore
