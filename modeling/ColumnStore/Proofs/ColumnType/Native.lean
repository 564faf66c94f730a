import ColumnStore.Proofs.ColumnType.Again
import ColumnStore.Proofs.ColumnType.Inside
import ColumnStore.Proofs.Decimal.Nearest
import ColumnStore.Proofs.Except.Basic

/-!
# Values That Stay as They Are

A type turns some values of other kinds into values of its own, and a decimal that has more
places than it into one that has not. Left as they are, in each part that the type accepts by
itself, are the values of its own kind. Whether a value is one of them can be told without
converting it.

A decimal is filled up to the places of the type even if it is of its kind. That is why what
becomes of a value is the same one and not an equal one, and why it is said separately that
what is left of both after they were written and read back is the same.

## Main definitions

* `ColumnType.isNative`: Whether a value is of the kind of a type, part by part.
* `ColumnType.Converts`: What becomes of a value, compared with the value.

## Theorems

* `ColumnType.converts_of_acceptAs`: What becomes of a value is the same value exactly if that
  is of the kind of the type.
* `ColumnType.hasEarlyDay_of_isNative`: A value of the kind of a type has no early day.
* `ColumnType.isNative_default`: The value of a column that was never given one is of the kind
  of its type.
-/

namespace ColumnStore

namespace ColumnType

mutual

/-- Whether a value is of the kind of a type, part by part. A document is one if it is the same
    as itself, that is, if all its numbers are numbers. -/
def isNative : ColumnType → Value → Bool
  | lowCardinality t, v => isNative t v
  | nullable _, .null => true
  | nullable t, v => isNative t v
  | array t, .array items => items.all (isNative t)
  | tuple ts, .tuple items => elementsNative ts items
  | map k x, .map entries => entries.all fun (u, v) => isNative k u && isNative x v
  | string, .string _ => true
  | fixedString _, .string _ => true
  | date, .date _ => true
  | dateTime _, .dateTime _ => true
  | dateTime64 _ _, .dateTime _ => true
  | word w, .int _ => w.signed
  | word w, .uint _ => !w.signed
  | float32, .float _ => true
  | float64, .float _ => true
  | decimal _ s, .decimal d => (d.round s.toNat).agrees d
  | bool, .bool _ => true
  | enum _ _, .enum _ => true
  | uuid, .uuid _ => true
  | ipv4, .ipv4 _ => true
  | ipv6, .ipv6 _ => true
  | json, .json j => j.agrees j
  | _, _ => false

/-- Whether the elements of a tuple are of the kinds of their types. -/
def elementsNative : List (Option String × ColumnType) → List Value → Bool
  | (_, t) :: ts, v :: vs => isNative t v && elementsNative ts vs
  | _, _ => true

end

/-- What becomes of a value: the same value if it is of the kind of the type, also in what is
    left of it after it was written and read back, and another one if it is not. -/
structure Converts (t : ColumnType) (v w : Value) : Prop where
  same : w.same v = t.isNative v
  norm : t.isNative v = true → ∀ eq (u : Value), u.agrees eq (t.norm w) = u.agrees eq (t.norm v)

variable {outer t : ColumnType} {v w : Value}

/-! ## Scalars -/

/-- A value that is not touched. -/
theorem Converts.refl (h : v.same v = t.isNative v) : Converts t v v :=
  ⟨h, fun _ _ _ => rfl⟩

theorem Converts.of_native (hnative : t.isNative v = true) (h : v.same v = true) :
    Converts t v v :=
  .refl (h.trans hnative.symm)

/-- A value of another kind. -/
theorem Converts.of_not_native (hnative : t.isNative v = false) (h : w.same v = false) :
    Converts t v w :=
  ⟨h.trans hnative.symm, fun hyes => absurd (hyes.symm.trans hnative) nofun⟩

theorem converts_of_acceptInteger {wt : WordType} (h : acceptInteger outer wt v = .ok w) :
    Converts (word wt) v w := by
  -- An integer becomes the one of the kind of the type that has its number.
  have hmade {n : Int} (h : acceptWord wt n = .ok w) : Value.ofWord wt n = w := by
    unfold acceptWord at h
    by_cases hn : wt.holds n = true
    · rw [if_pos hn] at h
      exact Except.ok.inj h
    · rw [if_neg hn] at h
      cases h
  cases v with
  | int n =>
    rw [← hmade h, Value.ofWord]
    cases hsigned : wt.signed with
    | true =>
      rw [if_pos rfl, Int64.ofInt_toInt]
      exact .of_native hsigned (decide_eq_true rfl)
    | false => exact .of_not_native hsigned rfl
  | uint n =>
    rw [← hmade h, Value.ofWord]
    cases hsigned : wt.signed with
    | true => exact .of_not_native (congrArg Bool.not hsigned) rfl
    | false =>
      rw [if_neg Bool.false_ne_true, Int.toNat_natCast, UInt64.ofNat_toNat]
      exact .of_native (congrArg Bool.not hsigned) (decide_eq_true rfl)
  | bool b =>
    refine .of_not_native rfl ?_
    rw [← hmade h, Value.ofWord]
    cases wt.signed <;> rfl
  | _ => cases h

/-- A point in time is left as it is, and a day becomes one. -/
theorem converts_of_acceptInstant (hnative : t.isNative v = (dateTime none).isNative v)
    (h : acceptInstant outer v = .ok w) : Converts t v w := by
  cases v with
  | dateTime i =>
    rw [← (of_ite_eq_ok h).2]
    exact .of_native hnative (decide_eq_true rfl)
  | date d =>
    cases h
    exact .of_not_native hnative rfl
  | _ => cases h

/-- A floating-point number is left as it is, and an integer becomes one. -/
theorem converts_of_acceptFloat (hnative : t.isNative v = float64.isNative v)
    (h : acceptFloat outer v = .ok w) : Converts t v w := by
  cases v with
  | float x =>
    cases h
    exact .of_native hnative (by simp [Value.same, Value.agrees])
  | int n =>
    cases h
    exact .of_not_native hnative rfl
  | uint n =>
    cases h
    exact .of_not_native hnative rfl
  | _ => cases h

/-- A decimal is left as it is if rounding it does not change the number. -/
theorem converts_of_acceptDecimal {p s : UInt8}
    (h : (do acceptDecimal p s (← toDecimal outer v)) = .ok w) : Converts (decimal p s) v w := by
  rcases of_bind_eq_ok h with ⟨d, hd, h⟩
  rcases (acceptDecimal_eq_ok_iff p s d w).1 h with ⟨-, rfl⟩
  cases v with
  | decimal e =>
    cases hd
    have hsame : ((d.round s.toNat).rescale s.toNat).agrees d = (d.round s.toNat).agrees d := by
      rw [Bool.eq_iff_iff, Decimal.agrees_iff, Decimal.agrees_iff, Decimal.toRat_rescale]
    refine ⟨hsame, fun hnative eq u => ?_⟩
    cases u with
    | decimal u =>
      show u.agrees _ = u.agrees _
      rw [Bool.eq_iff_iff, Decimal.agrees_iff, Decimal.agrees_iff,
        (Decimal.agrees_iff _ _).1 (hsame.trans hnative)]
    | _ => rfl
  | int n => exact .of_not_native rfl rfl
  | uint n => exact .of_not_native rfl rfl
  | float x => exact .of_not_native rfl rfl
  | _ => cases hd

theorem converts_of_toMember {members : List (String × Int16)} (size : EnumSize)
    (h : toMember outer members v = .ok w) : Converts (enum size members) v w := by
  cases v with
  | enum key =>
    rcases of_member h with ⟨name, hname, rfl⟩
    rw [eq_of_memberNamed? hname]
    exact .of_native rfl (decide_eq_true rfl)
  | string key =>
    rcases of_member h with ⟨name, -, rfl⟩
    exact .of_not_native rfl rfl
  | int n =>
    rcases of_member h with ⟨name, -, rfl⟩
    exact .of_not_native rfl rfl
  | uint n =>
    rcases of_member h with ⟨name, -, rfl⟩
    exact .of_not_native rfl rfl
  | _ => cases h

theorem converts_of_acceptScalar (h : acceptScalar outer t v = .ok w) : Converts t v w := by
  -- There is a case for each type and kind of value that it accepts. A value of the kind of
  -- the type is the result itself, and one of another kind differs from it by its kind.
  unfold acceptScalar at h
  split at h
  · cases h
    exact .of_native rfl (decide_eq_true rfl)
  · rw [← (of_ite_eq_ok h).2]
    exact .of_native rfl (decide_eq_true rfl)
  · rw [← (of_ite_eq_ok h).2]
    exact .of_native rfl (decide_eq_true rfl)
  · rw [← (of_ite_eq_ok h).2]
    exact .of_not_native rfl rfl
  · exact converts_of_acceptInstant (by cases v <;> rfl) h
  · exact converts_of_acceptInstant (by cases v <;> rfl) h
  · exact converts_of_acceptInteger h
  · exact converts_of_acceptFloat (by cases v <;> rfl) h
  · exact converts_of_acceptFloat rfl h
  · exact converts_of_acceptDecimal h
  · cases h
    exact .of_native rfl (decide_eq_true rfl)
  · cases h
    exact .of_not_native rfl rfl
  · cases h
    exact .of_not_native rfl rfl
  · exact converts_of_toMember _ h
  · cases h
    exact .of_native rfl (decide_eq_true rfl)
  · split at h
    · cases h
      exact .of_not_native rfl rfl
    · cases h
  · cases h
    exact .of_native rfl (decide_eq_true rfl)
  · split at h
    · cases h
      exact .of_not_native rfl rfl
    · cases h
  · cases h
    exact .of_native rfl (decide_eq_true rfl)
  · cases h
    exact .of_not_native rfl rfl
  · cases h
    exact .refl rfl
  · split at h
    · cases h
      exact .of_not_native rfl rfl
    · cases h
  · cases h

/-! ## Composite values -/

theorem Converts.array {vs ws : List Value} (h : List.Forall₂ (Converts t) vs ws) :
    Converts (array t) (.array vs) (.array ws) := by
  constructor
  · show Value.listAgrees _ ws vs = vs.all t.isNative
    induction h with
    | nil => rfl
    | cons hv _ ih =>
      rw [Value.listAgrees, List.all_cons, ← hv.same, ih]
      rfl
  · intro hnative eq u
    cases u with
    | array us =>
      show Value.listAgrees eq us (ws.map t.norm) = Value.listAgrees eq us (vs.map t.norm)
      replace hnative : vs.all t.isNative = true := hnative
      induction h generalizing us with
      | nil => rfl
      | cons hv _ ih =>
        rw [List.all_cons, Bool.and_eq_true] at hnative
        cases us with
        | nil => rfl
        | cons u us =>
          rw [List.map_cons, List.map_cons, Value.listAgrees, Value.listAgrees,
            hv.norm hnative.1, ih us hnative.2]
    | _ => rfl

theorem Converts.map {k x : ColumnType} {vs ws : List (Value × Value)}
    (h : List.Forall₂ (fun e e' => Converts k e.1 e'.1 ∧ Converts x e.2 e'.2) vs ws) :
    Converts (map k x) (.map vs) (.map ws) := by
  constructor
  · show Value.entriesAgree _ ws vs = vs.all fun e => k.isNative e.1 && x.isNative e.2
    induction h with
    | nil => rfl
    | cons he _ ih =>
      rw [Value.entriesAgree, List.all_cons, ← he.1.same, ← he.2.same, ih]
      rfl
  · intro hnative eq u
    cases u with
    | map us =>
      show Value.entriesAgree eq us (ws.map fun e => (k.norm e.1, x.norm e.2)) =
        Value.entriesAgree eq us (vs.map fun e => (k.norm e.1, x.norm e.2))
      replace hnative : (vs.all fun e => k.isNative e.1 && x.isNative e.2) = true := hnative
      induction h generalizing us with
      | nil => rfl
      | cons he _ ih =>
        rw [List.all_cons, Bool.and_eq_true, Bool.and_eq_true] at hnative
        cases us with
        | nil => rfl
        | cons u us =>
          rw [List.map_cons, List.map_cons, Value.entriesAgree, Value.entriesAgree,
            he.1.norm hnative.1.1, he.2.norm hnative.1.2, ih us hnative.2]
    | _ => rfl

/-- The elements of a tuple, of which there is one for each type, are converted one by one. -/
theorem Converts.elements {ts : List (Option String × ColumnType)}
    (ih : ∀ e ∈ ts, ∀ v w, acceptAs e.2 e.2 v = .ok w → Converts e.2 v w)
    {vs ws : List Value} (hlen : ts.length = vs.length) (h : acceptElements ts vs = .ok ws) :
    Converts (tuple ts) (.tuple vs) (.tuple ws) := by
  induction ts generalizing vs ws with
  | nil =>
    cases vs with
    | nil =>
      cases h
      exact .refl rfl
    | cons v vs => cases hlen
  | cons e ts ihs =>
    cases vs with
    | nil => cases hlen
    | cons v vs =>
      rw [acceptElements] at h
      rcases of_bind_eq_ok h with ⟨w, hv, h⟩
      rcases of_bind_eq_ok h with ⟨ws', hvs, h⟩
      cases h
      have hfirst := ih e List.mem_cons_self v w hv
      have hrest := ihs (fun e' he' => ih e' (List.mem_cons_of_mem e he')) (Nat.succ.inj hlen) hvs
      constructor
      · show (w.same v && (Value.tuple ws').same (.tuple vs)) = (e.2.isNative v && _)
        rw [hfirst.same, hrest.same]
        rfl
      · intro hnative eq u
        replace hnative := Bool.and_eq_true_iff.1 hnative
        -- A tuple that is compared with this one has an element and other elements, too.
        cases u with
        | tuple us =>
          cases us with
          | nil => rfl
          | cons u us =>
            show (u.agrees eq _ && (Value.tuple us).agrees eq ((tuple ts).norm (.tuple ws'))) =
              (u.agrees eq _ && (Value.tuple us).agrees eq ((tuple ts).norm (.tuple vs)))
            rw [hfirst.norm hnative.1, hrest.norm hnative.2]
        | _ => rfl

/-- The wrapper takes only the absence of content for itself. -/
theorem isNative_nullable (hv : v ≠ .null) : (nullable t).isNative v = t.isNative v := by
  cases v with
  | null => exact absurd rfl hv
  | _ => rfl

theorem norm_nullable (hv : v ≠ .null) : (nullable t).norm v = t.norm v := by
  cases v with
  | null => exact absurd rfl hv
  | _ => rfl

/-- What becomes of a value is the same value exactly if that is of the kind of the type. -/
theorem converts_of_acceptAs (t : ColumnType) {outer : ColumnType} {v w : Value}
    (h : acceptAs outer t v = .ok w) : Converts t v w := by
  -- Induction on the type. The absence of content is accepted under a wrapper only, and stays.
  induction t using mem_induction generalizing outer v w with
  | scalar t ht =>
    by_cases hv : v = .null
    · subst hv
      cases t with
      | array | tuple | map | nullable | lowCardinality => cases ht
      | _ => cases h
    · refine converts_of_acceptScalar (?_ : acceptScalar outer t v = .ok w)
      cases t with
      | array | tuple | map | nullable | lowCardinality => cases ht
      | _ =>
        cases v with
        | null => exact absurd rfl hv
        | _ => exact h
  | array t ih =>
    cases v with
    | array vs =>
      rcases of_map_eq_ok h with ⟨ws, hws, rfl⟩
      exact .array (forall₂_of_mapM hws fun v w => ih)
    | _ => cases h
  | tuple ts ih =>
    cases v with
    | tuple vs =>
      rw [acceptAs] at h
      by_cases hlen : ts.length = vs.length
      · rw [if_pos hlen] at h
        rcases of_map_eq_ok h with ⟨ws, hws, rfl⟩
        exact .elements (fun e he v w => ih e he) hlen hws
      · rw [if_neg hlen] at h
        cases h
    | _ => cases h
  | map k x ihk ihx =>
    cases v with
    | map vs =>
      rcases of_map_eq_ok h with ⟨ws, hws, rfl⟩
      refine .map (forall₂_of_mapM hws fun e e' he => ?_)
      rcases of_bind_eq_ok he with ⟨key, hkey, he⟩
      rcases of_bind_eq_ok he with ⟨value, hvalue, he⟩
      cases he
      exact ⟨ihk hkey, ihx hvalue⟩
    | _ => cases h
  | nullable t ih =>
    by_cases hv : v = .null
    · subst hv
      cases h
      exact .refl rfl
    · rw [acceptAs_nullable hv] at h
      have hinner := ih h
      refine ⟨?_, fun hnative => ?_⟩
      · rw [isNative_nullable hv]
        exact hinner.same
      · rw [norm_nullable hv, norm_nullable (accept_ne_null t hv h)]
        exact hinner.norm (isNative_nullable hv ▸ hnative)
  | lowCardinality t ih => exact ⟨(ih h).same, (ih h).norm⟩

theorem elementsHaveEarlyDay_of_native {ts : List (Option String × ColumnType)}
    (ih : ∀ e ∈ ts, ∀ v, e.2.isNative v = true → e.2.hasEarlyDay v = false) {vs : List Value}
    (h : elementsNative ts vs = true) : elementsHaveEarlyDay ts vs = false := by
  induction ts generalizing vs with
  | nil => rfl
  | cons e ts ihs =>
    cases vs with
    | nil => rfl
    | cons v vs =>
      replace h := Bool.and_eq_true_iff.1 h
      rw [elementsHaveEarlyDay, ih e List.mem_cons_self v h.1,
        ihs (fun e' he' => ih e' (List.mem_cons_of_mem e he')) h.2, Bool.or_false]

/-- Days in the place of points in time are of another kind. -/
theorem hasEarlyDay_of_isNative (t : ColumnType) {v : Value} (h : t.isNative v = true) :
    t.hasEarlyDay v = false := by
  induction t using mem_induction generalizing v with
  | scalar t ht =>
    cases t with
    | array | tuple | map | nullable | lowCardinality => cases ht
    | dateTime | dateTime64 =>
      cases v with
      | date => cases h
      | _ => rfl
    | _ => rfl
  | array t ih =>
    cases v with
    | array vs =>
      replace h := List.all_eq_true.1 h
      exact List.any_eq_false.2 fun v hv => Bool.eq_false_iff.1 (ih (h v hv))
    | _ => rfl
  | tuple ts ih =>
    cases v with
    | tuple vs => exact elementsHaveEarlyDay_of_native (fun e he v => ih e he) h
    | _ => rfl
  | map k x ihk ihx =>
    cases v with
    | map vs =>
      replace h := List.all_eq_true.1 h
      refine List.any_eq_false.2 fun e he => ?_
      have hparts := Bool.and_eq_true_iff.1 (h e he)
      exact Bool.eq_false_iff.1 (Bool.or_eq_false_iff.2 ⟨ihk hparts.1, ihx hparts.2⟩)
    | _ => rfl
  | nullable t ih =>
    by_cases hv : v = .null
    · rw [hv, hasEarlyDay_null]
    · exact ih (isNative_nullable hv ▸ h)
  | lowCardinality t ih => exact ih h

/-! ## Defaults of types -/

theorem same_elementDefaults {ts : List (Option String × ColumnType)}
    (h : ∀ e ∈ ts, e.2.default.same e.2.default = true) :
    (Value.tuple (elementDefaults ts)).same (.tuple (elementDefaults ts)) = true := by
  induction ts with
  | nil => rfl
  | cons e ts ih =>
    show (e.2.default.same e.2.default && _) = true
    rw [h e List.mem_cons_self, Bool.true_and]
    exact ih fun e' he' => h e' (List.mem_cons_of_mem e he')

/-- The value of a column that was never given one is the same as itself. -/
theorem same_default (t : ColumnType) : t.default.same t.default = true := by
  induction t using mem_induction with
  | scalar t ht =>
    cases t with
    | array | tuple | map | nullable | lowCardinality => cases ht
    | word w =>
      unfold default Value.ofWord
      cases w.signed <;> rfl
    | decimal p s => exact Decimal.agrees_self _
    | enum size members =>
      cases members with
      | nil => rfl
      | cons m members => simp [default, Value.same, Value.agrees]
    | _ => rfl
  | tuple ts ih => exact same_elementDefaults ih
  | lowCardinality t ih => exact ih
  | _ => rfl

/-- The value of a column that was never given one is of the kind of its type. -/
theorem isNative_default {t : ColumnType} (h : check t = .ok ()) : t.isNative t.default = true := by
  rw [← (converts_of_acceptAs t (accept_default t h : accept t t.default = .ok _)).same]
  exact t.same_default

end ColumnType

end ColumnStore
