import ColumnStore.Proofs.ColumnType.Again
import ColumnStore.Proofs.Statement.Insertion

/-!
# Setting and Inserting

A record is checked twice: each value when it is set, and all of them when the record is
inserted. Whoever sets a value and is not refused relies on being able to insert the record
later, however many other values are set in between.

A record holds in each field what became of the last value that the field took, or the
default of the field if it took none. Defaults were checked when the model was built. So
the second check finds nothing, but for one kind of value: a day before 1970 is taken by a
column of points in time, and the point in time that it becomes is not.

## Main definitions

* `Record.trySet`: The record after a call, whether the value is refused or not.
* `Field.lastTaken`, `Field.givenAfter`: The last value that a field took, or its default.
* `Field.heldAfter`: What a record holds in a field.
* `Field.hasEarlyDay`: Whether the last value that a field took has a day before 1970.

## Theorems

* `Record.trySet_cases`, `Record.values_trySet`: A call changes the field that takes it.
* `Record.values_trySets`: What a record holds after some calls.
* `Field.of_check`, `Field.accept_default`: Defaults are accepted.
* `Field.encode_heldAfter`: What is held is written, or it was an early day.
* `Record.refused_of_hasEarlyDay`: Early days are refused when the record is inserted.
* `Record.literals_trySets_eq_ok_iff`, `Record.literals_trySets`: Which records can be inserted.
* `Record.early_day_is_refused`: A day that is taken and cannot be inserted.
-/

namespace ColumnStore

namespace Record

/-- The record after a value was set, or as it was if the value is refused. -/
def trySet (r : Record) (call : String × Value) : Record :=
  (r.set call.1 call.2).toOption.getD r

/-- The record after some calls. -/
def trySets (r : Record) (calls : List (String × Value)) : Record :=
  calls.foldl trySet r

end Record

namespace Field

/-- Whether a field takes the value of a call. -/
def takes (f : Field) (call : String × Value) : Bool :=
  f.name = call.1 && (f.type.accept call.2).toOption.isSome

/-- The last value that a field took. -/
def lastTaken (f : Field) (calls : List (String × Value)) : Option Value :=
  (calls.reverse.find? f.takes).map (·.2)

/-- What a record holds in a field after some calls. -/
def heldAfter (f : Field) (calls : List (String × Value)) : Value :=
  ((f.lastTaken calls).map f.kept).getD f.default

/-- The last value that a field took, or its default. -/
def givenAfter (f : Field) (calls : List (String × Value)) : Value :=
  (f.lastTaken calls).getD f.default

theorem takes_iff {f : Field} {call : String × Value} :
    f.takes call = true ↔ f.name = call.1 ∧ ∃ w, f.type.accept call.2 = .ok w := by
  rw [takes, Bool.and_eq_true, decide_eq_true_eq]
  refine and_congr_right fun _ => ?_
  cases f.type.accept call.2 with
  | error e => simp [Except.toOption]
  | ok w => simp [Except.toOption]

/-- A call counts if its value is taken. -/
theorem heldAfter_concat (f : Field) (calls : List (String × Value)) (call : String × Value) :
    f.heldAfter (calls ++ [call]) =
      if f.takes call then f.kept call.2 else f.heldAfter calls := by
  unfold heldAfter lastTaken
  rw [List.reverse_concat, List.find?_cons]
  cases f.takes call with
  | true => rfl
  | false => rfl

end Field

namespace Record

/-- A call changes the value of the field that takes it, of which there is one at most. -/
theorem trySet_cases (r : Record) (call : String × Value) :
    (r.trySet call = r ∧ ∀ f ∈ r.model.fields, f.takes call = false) ∨
      ∃ i, r.trySet call = r.replace i ((r.model.fields.get i).kept call.2) ∧
        ∀ f ∈ r.model.fields, f.takes call = true ↔ f = r.model.fields.get i := by
  unfold trySet set index Model.fieldIndex?
  cases hindex : r.model.fields.findFinIdx? (fun f => f.name = call.1) with
  | none =>
    have hnone := List.findFinIdx?_eq_none_iff.1 hindex
    refine Or.inl ⟨rfl, fun f hf => ?_⟩
    have hname := hnone f hf
    unfold Field.takes
    rw [decide_eq_false (by simpa using hname), Bool.false_and]
  | some i =>
    have hname : (r.model.fields.get i).name = call.1 :=
      of_decide_eq_true (List.findFinIdx?_eq_some_iff.1 hindex).1
    -- No other field has the name.
    have honly : ∀ f ∈ r.model.fields, f.takes call = true → f = r.model.fields.get i := by
      intro f hf htakes
      exact List.inj_on_of_nodup_map r.model.nodup_names hf (List.get_mem r.model.fields i)
        ((Field.takes_iff.1 htakes).1.trans hname.symm)
    cases haccept : (r.model.fields.get i).type.accept call.2 with
    | error e =>
      simp only [Bind.bind, Except.bind, Field.accept, haccept]
      refine Or.inl ⟨rfl, fun f hf => Bool.eq_false_iff.2 fun htakes => ?_⟩
      rcases (Field.takes_iff.1 htakes).2 with ⟨w, hw⟩
      rw [honly f hf htakes, haccept] at hw
      cases hw
    | ok w =>
      simp only [Bind.bind, Except.bind, Field.accept, haccept]
      refine Or.inr ⟨i, ?_, fun f hf => ⟨honly f hf, ?_⟩⟩
      · rw [Field.kept, haccept]
        rfl
      · rintro rfl
        exact Field.takes_iff.2 ⟨hname, w, haccept⟩

/-- A call changes the field that it names, if the value is taken, and no other. -/
theorem values_trySet {r : Record} {held : Field → Value}
    (h : r.values = r.model.fields.map held) (call : String × Value) :
    (r.trySet call).model = r.model ∧ (r.trySet call).values =
      r.model.fields.map fun f => if f.takes call then f.kept call.2 else held f := by
  rcases r.trySet_cases call with ⟨hsame, hnone⟩ | ⟨i, hset, honly⟩
  · rw [hsame, h]
    refine ⟨rfl, List.map_congr_left fun f hf => ?_⟩
    rw [hnone f hf, if_neg Bool.false_ne_true]
  · rw [hset]
    refine ⟨rfl, ?_⟩
    show r.values.set i.val _ = _
    rw [h]
    refine List.ext_getElem (by simp) fun j hj _ => ?_
    rw [List.length_set, List.length_map] at hj
    rw [List.getElem_set, List.getElem_map, List.getElem_map]
    have htakes := honly _ (List.getElem_mem hj)
    -- The fields are distinct, so that the one at the position is the one that takes the value.
    have hposition : r.model.fields[j] = r.model.fields.get i ↔ i.val = j := by
      rw [List.get_eq_getElem]
      exact (List.Nodup.getElem_inj_iff r.model.nodup_names.of_map).trans eq_comm
    rw [hposition] at htakes
    by_cases hij : i.val = j
    · rw [if_pos hij, if_pos (htakes.2 hij), hposition.2 hij]
    · rw [if_neg hij, if_neg fun hyes => hij (htakes.1 hyes)]

/-- A record holds in each field what became of the last value that the field took. -/
theorem values_trySets (m : Model) (calls : List (String × Value)) :
    ((new m).trySets calls).model = m ∧
      ((new m).trySets calls).values = m.fields.map (Field.heldAfter · calls) := by
  -- Induction on the calls, from the last one on.
  induction calls using List.reverseRecOn with
  | nil => exact ⟨rfl, rfl⟩
  | append_singleton calls call ih =>
    rcases ih with ⟨hmodel, hvalues⟩
    unfold trySets at *
    rw [List.foldl_concat]
    rcases values_trySet (by rw [hmodel]; exact hvalues) call with ⟨hmodel', hvalues'⟩
    rw [hmodel'.trans hmodel, hvalues', hmodel]
    refine ⟨rfl, List.map_congr_left fun f _ => ?_⟩
    exact (f.heldAfter_concat calls call).symm

end Record

namespace Field

/-- The type of a field is one that a table can have, and accepts its constant. -/
theorem of_check {f : Field} (h : f.check = .ok ()) :
    f.type.check = .ok () ∧ ∀ v, f.fallback = some (.value v) → ∃ s, f.encode v = .ok s := by
  unfold check at h
  dsimp only at h
  -- Three names are not empty and there are not several sources.
  have hrest := (of_guard (of_guard (of_guard (of_guard h).2).2).2).2
  rcases of_bind_eq_ok hrest with ⟨⟨⟩, htype, hfallback⟩
  refine ⟨?_, fun v hv => ?_⟩
  · cases hcheck : f.type.check with
    | error e =>
      rw [hcheck] at htype
      cases htype
    | ok u => rfl
  · rw [hv] at hfallback
    rcases of_map_eq_ok (x := f.encode v) hfallback with ⟨s, hs, -⟩
    exact ⟨s, hs⟩

/-- The default of a field is accepted by its type. -/
theorem accept_default {f : Field} (h : f.check = .ok ()) :
    ∃ w, f.type.accept f.default = .ok w := by
  rcases of_check h with ⟨htype, hvalue⟩
  unfold default
  cases hfallback : f.fallback with
  | none => exact ⟨_, ColumnType.accept_default f.type htype⟩
  | some fallback =>
    cases fallback with
    | expr e => exact ⟨_, ColumnType.accept_default f.type htype⟩
    | value v =>
      rcases hvalue v hfallback with ⟨s, hs⟩
      show ∃ w, f.type.accept v = .ok w
      cases haccept : f.type.accept v with
      | error e =>
        rw [encode, ColumnType.encode, haccept] at hs
        cases hs
      | ok w => exact ⟨w, rfl⟩

/-- The last value that a field took has an early day in it. -/
def hasEarlyDay (f : Field) (calls : List (String × Value)) : Bool :=
  (f.lastTaken calls).any f.type.hasEarlyDay

theorem encode_eq_ok {f : Field} {v w : Value} (h : f.type.accept v = .ok w) :
    f.encode v = .ok (f.type.sqlOf w) := by
  rw [encode, ColumnType.encode, h]
  rfl

/-- What a record holds in a field is written as the value that was given, unless it has an
    early day. -/
theorem encode_heldAfter {f : Field} (h : f.check = .ok ()) (calls : List (String × Value)) :
    match f.hasEarlyDay calls with
    | false => f.encode (f.heldAfter calls) = .ok (f.type.sqlOf (f.kept (f.givenAfter calls)))
    | true => ∃ t, f.encode (f.heldAfter calls) = .error (.fieldValue f.name (.beforeEpoch t)) := by
  unfold hasEarlyDay heldAfter givenAfter
  cases hlast : f.lastTaken calls with
  | none =>
    rcases accept_default h with ⟨w, hw⟩
    show f.encode f.default = .ok (f.type.sqlOf (f.kept f.default))
    rw [encode_eq_ok hw, kept, hw]
  | some v =>
    -- The value was taken once, and becomes what it is.
    have htaken : ∃ w, f.type.accept v = .ok w := by
      rcases Option.map_eq_some_iff.1 hlast with ⟨call, hfind, rfl⟩
      exact (takes_iff.1 (List.find?_some hfind)).2
    rcases htaken with ⟨w, hw⟩
    have hkept : f.kept v = w := by rw [kept, hw]
    have hagain : ColumnType.TakenUnless (f.type.hasEarlyDay v) w (f.type.accept w) :=
      ColumnType.accept_again f.type hw
    simp only [Option.any_some, Option.map_some, Option.getD_some, hkept]
    cases hearly : f.type.hasEarlyDay v with
    | false =>
      rw [hearly] at hagain
      exact encode_eq_ok hagain
    | true =>
      rw [hearly] at hagain
      rcases hagain with ⟨t, ht⟩
      refine ⟨t, ?_⟩
      rw [encode, ColumnType.encode, ht]
      rfl

end Field

namespace Record

theorem literals_eq {r : Record} {held : Field → Value}
    (h : r.values = r.model.fields.map held) :
    r.literals = r.model.insertable.mapM fun f => f.encode (held f) := by
  have hpairs : r.pairs = r.model.fields.map fun f => (f, held f) := by
    rw [pairs, h, List.map_prod_left_eq_zip]
  unfold literals Model.insertable
  rw [hpairs, List.filter_map, List.mapM_map]
  rfl

theorem literals_trySets_eq_mapM (m : Model) (calls : List (String × Value)) :
    ((new m).trySets calls).literals =
      m.insertable.mapM fun f => f.encode (f.heldAfter calls) := by
  rcases values_trySets m calls with ⟨hmodel, hvalues⟩
  rw [literals_eq (by rw [hmodel]; exact hvalues), hmodel]

/-- A record is refused for an early day that one of its fields took. -/
theorem refused_of_hasEarlyDay {m : Model} {calls : List (String × Value)}
    (h : ∃ f ∈ m.insertable, f.hasEarlyDay calls = true) :
    ∃ f ∈ m.insertable, f.hasEarlyDay calls = true ∧ ∃ t,
      ((new m).trySets calls).literals = .error (.fieldValue f.name (.beforeEpoch t)) := by
  have hencode : ∀ f ∈ m.insertable, _ := fun f hf =>
    Field.encode_heldAfter (m.check_of_mem (List.mem_of_mem_filter hf)) calls
  have hfails : ∃ f ∈ m.insertable, ∃ e, f.encode (f.heldAfter calls) = .error e := by
    rcases h with ⟨f, hf, hearly⟩
    have hrefused := hencode f hf
    rw [hearly] at hrefused
    rcases hrefused with ⟨t, ht⟩
    exact ⟨f, hf, _, ht⟩
  rcases mapM_eq_error hfails with ⟨f, hf, e, he, hall⟩
  refine ⟨f, hf, ?_⟩
  -- The field for which the record is refused may be another one.
  have hrefused := hencode f hf
  cases hearly : f.hasEarlyDay calls with
  | false =>
    rw [hearly, he] at hrefused
    cases hrefused
  | true =>
    rw [hearly] at hrefused
    rcases hrefused with ⟨t, ht⟩
    rw [he] at ht
    refine ⟨rfl, t, ?_⟩
    rw [literals_trySets_eq_mapM, hall, Except.error.inj ht]

/-- All that was taken is written, unless a field took an early day last. -/
theorem literals_trySets_eq_ok_iff (m : Model) (calls : List (String × Value)) :
    ((new m).trySets calls).literals =
        .ok (m.insertable.map fun f => f.type.sqlOf (f.kept (f.givenAfter calls))) ↔
      ∀ f ∈ m.insertable, f.hasEarlyDay calls = false := by
  constructor
  · intro hok f hf
    cases hearly : f.hasEarlyDay calls with
    | false => rfl
    | true =>
      rcases refused_of_hasEarlyDay ⟨f, hf, hearly⟩ with ⟨g, -, -, t, ht⟩
      rw [hok] at ht
      cases ht
  · intro hnone
    rw [literals_trySets_eq_mapM]
    refine mapM_eq_pure fun f hf => ?_
    have hwritten := Field.encode_heldAfter (m.check_of_mem (List.mem_of_mem_filter hf)) calls
    rw [hnone f hf] at hwritten
    exact hwritten

/-- A record holds in each field what became of the last value that the field took, or its
    default, whatever else was set or refused. All that was taken is inserted, except for
    early days: there is a literal for each field that is inserted if no field took one last,
    and otherwise the record is refused because of a field that did. -/
theorem literals_trySets (m : Model) (calls : List (String × Value)) :
    ((new m).trySets calls).model = m ∧
      ((new m).trySets calls).values = m.fields.map (Field.heldAfter · calls) ∧
      (((new m).trySets calls).literals =
          .ok (m.insertable.map fun f => f.type.sqlOf (f.kept (f.givenAfter calls))) ↔
        ∀ f ∈ m.insertable, f.hasEarlyDay calls = false) ∧
      ((∃ f ∈ m.insertable, f.hasEarlyDay calls = true) →
        ∃ f ∈ m.insertable, f.hasEarlyDay calls = true ∧ ∃ t,
          ((new m).trySets calls).literals = .error (.fieldValue f.name (.beforeEpoch t))) := by
  rcases values_trySets m calls with ⟨hmodel, hvalues⟩
  exact ⟨hmodel, hvalues, literals_trySets_eq_ok_iff m calls, refused_of_hasEarlyDay⟩

/-- A model of points in time. -/
def moments : Model :=
  ⟨"moments", [{ name := "at", type := .dateTime none }], none, false, rfl⟩

/-- The last day before 1970 is taken by a column of points in time, but the record cannot
    be inserted any more. -/
theorem early_day_is_refused :
    ∃ r, (new moments).set "at" (.date ⟨1969, 12, 31, by decide⟩) = .ok r ∧
      r.literals = .error (.fieldValue "at" (.beforeEpoch (.dateTime none))) :=
  ⟨_, rfl, rfl⟩

end Record

end ColumnStore
