import ColumnStore.ColumnType.Check
import ColumnStore.Proofs.ColumnType.RoundTrip
import ColumnStore.Proofs.Except.Basic

/-!
# Values That Are Accepted Twice

A value that is put into a record is accepted by the type of its field, and what became of
it is accepted once more when the record is written. The second time nothing happens to it:
whatever a type makes of a value, it makes of it again, with one exception.

The exception is a day in a column of points in time. It becomes the first moment of the
day, and no range is checked; but points in time before 1970 are refused. So a day before
1970 is accepted once and not again, also if it stands inside of a composite value.

The value of a column that was never given one is accepted by every type that a table can
have.

## Main definitions

* `ColumnType.hasEarlyDay`: Whether a value has a day before 1970 where the type has points
  in time.
* `ColumnType.TakenUnless`: The second acceptance, which fails for such a value.

## Theorems

* `Date.before_epoch_iff`: The days before 1970 have the numbers below zero.
* `ColumnType.accept_again`: What was accepted is accepted again, or has an early day.
* `ColumnType.accept_default`: The value of a column without values is accepted.
-/

namespace ColumnStore

/-- The days before 1970 have the numbers below zero. -/
theorem Date.before_epoch_iff (d : Date) : d.before epoch = true ↔ d.dayNumber < 0 := by
  have hmonth := d.valid.2.1
  have hday := d.valid.2.2
  have hin := daysBefore_add_daysIn_le d.year hmonth
  have hnext := yearStart_succ d.year
  have hstart : yearStart 1970 = 0 := by decide
  have hbefore : d.before epoch = true ↔ d.year < 1970 := by
    simp only [before, Bool.or_eq_true, Bool.and_eq_true, decide_eq_true_eq,
      show epoch.year = 1970 from rfl, show epoch.month = 1 from rfl,
      show epoch.day = 1 from rfl]
    omega
  rw [hbefore]
  -- A day lies between the start of its year and that of the next one.
  have hends : yearStart d.year ≤ d.dayNumber ∧ d.dayNumber < yearStart (d.year + 1) := by
    simp only [dayNumber]
    by_cases hleap : isLeap d.year = true
    · rw [if_pos hleap] at hin hnext
      omega
    · rw [if_neg hleap] at hin hnext
      omega
  by_cases h : d.year < 1970
  · have hle : yearStart (d.year + 1) ≤ yearStart 1970 := by
      simp only [yearStart]
      omega
    exact iff_of_true h (by omega)
  · have hle : yearStart 1970 ≤ yearStart d.year := by
      simp only [yearStart]
      omega
    exact iff_of_false h (by omega)

namespace ColumnType

mutual

/-- Whether a value has a day before 1970 where the type has points in time. -/
def hasEarlyDay : ColumnType → Value → Bool
  | lowCardinality t, v => hasEarlyDay t v
  | nullable t, v => hasEarlyDay t v
  | dateTime _, .date d => d.before Date.epoch
  | dateTime64 _ _, .date d => d.before Date.epoch
  | array t, .array items => items.any (hasEarlyDay t)
  | tuple ts, .tuple items => elementsHaveEarlyDay ts items
  | map k x, .map entries => entries.any fun (u, v) => hasEarlyDay k u || hasEarlyDay x v
  | _, _ => false

/-- Whether an element of a tuple has such a day. -/
def elementsHaveEarlyDay : List (Option String × ColumnType) → List Value → Bool
  | (_, t) :: ts, v :: vs => hasEarlyDay t v || elementsHaveEarlyDay ts vs
  | _, _ => false

end

/-- Values are taken as they are, or they have early days and are refused for it. -/
def TakenUnless {α : Type} (early : Bool) (w : α) (x : Except CodecError α) : Prop :=
  match early with
  | false => x = .ok w
  | true => ∃ t, x = .error (.beforeEpoch t)

section Taken

variable {α β γ : Type}

theorem TakenUnless.map {b : Bool} {w : α} {x : Except CodecError α} (h : TakenUnless b w x)
    (f : α → β) : TakenUnless b (f w) (x.map f) := by
  cases b with
  | false =>
    rw [show x = .ok w from h]
    rfl
  | true =>
    rcases h with ⟨t, rfl⟩
    exact ⟨t, rfl⟩

/-- The first refusal counts. -/
theorem TakenUnless.pair {b c : Bool} {w : α} {u : β} {x : Except CodecError α}
    {y : Except CodecError β} (hx : TakenUnless b w x) (hy : TakenUnless c u y)
    (f : α → β → γ) : TakenUnless (b || c) (f w u) (do pure (f (← x) (← y))) := by
  cases b with
  | true =>
    rcases hx with ⟨t, rfl⟩
    exact ⟨t, rfl⟩
  | false =>
    rw [show x = .ok w from hx]
    cases c with
    | true =>
      rcases hy with ⟨t, rfl⟩
      exact ⟨t, rfl⟩
    | false =>
      rw [show y = .ok u from hy]
      rfl

/-- What becomes of the items of a list is taken item by item. -/
theorem TakenUnless.list {f g : α → Except CodecError α} {early : α → Bool}
    (h : ∀ v w, f v = .ok w → TakenUnless (early v) w (g w)) {vs ws : List α}
    (hf : vs.mapM f = .ok ws) : TakenUnless (vs.any early) ws (ws.mapM g) := by
  induction vs generalizing ws with
  | nil =>
    rw [List.mapM_nil] at hf
    cases hf
    rfl
  | cons v vs ih =>
    rcases of_mapM_cons_eq_ok hf with ⟨w, ws', hv, hvs, rfl⟩
    rw [List.any_cons, List.mapM_cons]
    exact (h v w hv).pair (ih hvs) List.cons

end Taken

theorem toInt?_ofWord {w : WordType} {n : Int} (h : w.holds n = true) :
    (Value.ofWord w n).toInt? = some n := by
  have hbounds := bounds_of_holds h
  unfold Value.ofWord
  cases hsigned : w.signed with
  | true =>
    simp only [hsigned, if_true] at hbounds
    simp only [if_true, Value.toInt?, Int64.toInt_ofInt_of_le (n := n) (by omega) (by omega)]
  | false =>
    simp only [hsigned, Bool.false_eq_true, if_false] at hbounds
    have hnat : ((UInt64.ofNat n.toNat).toNat : Int) = n := by
      rw [UInt64.toNat_ofNat_of_lt' (by simp only [UInt64.size]; omega)]
      omega
    simp only [Bool.false_eq_true, if_false, Value.toInt?, hnat]

theorem acceptInteger_of_toInt? (outer : ColumnType) {w : WordType} {v : Value} {n : Int}
    (hn : v.toInt? = some n) : acceptInteger outer w v = acceptWord w n := by
  cases v with
  | int m =>
    cases hn
    rfl
  | uint m =>
    cases hn
    rfl
  | _ => cases hn

theorem acceptInteger_ofWord (outer : ColumnType) {w : WordType} {n : Int}
    (h : w.holds n = true) : acceptInteger outer w (Value.ofWord w n) = .ok (Value.ofWord w n) := by
  rw [acceptInteger_of_toInt? outer (toInt?_ofWord h)]
  exact if_pos h

/-- A point in time that was accepted is accepted again, unless it was an early day. -/
theorem takenUnless_instant {outer outer' : ColumnType} {v w : Value}
    (h : acceptInstant outer v = .ok w) :
    TakenUnless (hasEarlyDay (dateTime none) v) w (acceptInstant outer' w) := by
  cases v with
  | dateTime t =>
    rcases of_ite_eq_ok h with ⟨ht, rfl⟩
    exact if_neg ht
  | date d =>
    cases h
    have hseconds : (Instant.ofDate d).seconds < 0 ↔ d.before Date.epoch = true := by
      rw [Date.before_epoch_iff]
      show 86400 * d.dayNumber < 0 ↔ d.dayNumber < 0
      omega
    show TakenUnless (d.before Date.epoch) _ _
    cases hearly : d.before Date.epoch with
    | false => exact if_neg fun hneg => by rw [hseconds, hearly] at hneg; cases hneg
    | true => exact ⟨outer', if_pos (hseconds.2 hearly)⟩
  | _ => cases h

/-- What a type accepts that is neither composite nor a wrapper is taken again, except for
    an early day. -/
theorem takenUnless_scalar {outer outer' t : ColumnType} {v w : Value} (ht : IsScalar t)
    (h : acceptAs outer t v = .ok w) :
    TakenUnless (hasEarlyDay t v) w (acceptAs outer' t w) := by
  cases keeps_of_acceptAs ht h with
  | word w n hn =>
    have hsame := acceptInteger_ofWord outer' hn
    generalize Value.ofWord w n = u at hsame ⊢
    cases u with
    | null => cases hsame
    | _ => exact hsame
  | fixedString n s =>
    cases v with
    | string s' =>
      rcases of_ite_eq_ok h with ⟨hn, hs⟩
      cases hs
      exact if_neg hn
    | _ => cases h
  | date d =>
    cases v with
    | date d' =>
      cases (of_ite_eq_ok h).2
      exact h
    | dateTime t =>
      have haccept : acceptDate t.date = .ok (.date d) := h
      rw [← Value.date.inj (of_ite_eq_ok h).2]
      rw [← Value.date.inj (of_ite_eq_ok h).2] at haccept
      exact haccept
    | _ => cases h
  | dateTime zone t =>
    cases v with
    | date d => exact @takenUnless_instant outer outer' (.date d) _ h
    | dateTime t' => exact @takenUnless_instant outer outer' (.dateTime t') _ h
    | _ => cases h
  | dateTime64 p zone t =>
    cases v with
    | date d => exact @takenUnless_instant outer outer' (.date d) _ h
    | dateTime t' => exact @takenUnless_instant outer outer' (.dateTime t') _ h
    | _ => cases h
  | decimal p q d e hd => exact acceptDecimal_again hd rfl rfl
  | enum size members name hname =>
    show toMember outer' members (.enum name) = _
    unfold toMember
    simp only [hname]
    rfl
  | _ => rfl

/-- What the elements of a tuple accept is as long as they are and taken again one by one. -/
theorem takenUnless_elements {ts : List (Option String × ColumnType)}
    (h : ∀ e ∈ ts, ∀ v w, acceptAs e.2 e.2 v = .ok w →
      TakenUnless (hasEarlyDay e.2 v) w (acceptAs e.2 e.2 w)) {vs ws : List Value}
    (hlen : ts.length = vs.length) (hf : acceptElements ts vs = .ok ws) :
    ts.length = ws.length ∧
      TakenUnless (elementsHaveEarlyDay ts vs) ws (acceptElements ts ws) := by
  induction ts generalizing vs ws with
  | nil =>
    cases hf
    exact ⟨rfl, rfl⟩
  | cons t ts ih =>
    cases vs with
    | nil => cases hlen
    | cons v vs =>
      rw [acceptElements] at hf
      rcases of_bind_eq_ok hf with ⟨w, hv, hrest⟩
      rcases of_bind_eq_ok hrest with ⟨ws', hvs, hws⟩
      cases hws
      rcases ih (fun e he => h e (List.mem_cons_of_mem t he)) (Nat.succ.inj hlen) hvs with
        ⟨hlength, htaken⟩
      have hfirst := h t List.mem_cons_self v w hv
      exact ⟨congrArg Nat.succ hlength, hfirst.pair htaken List.cons⟩

/-- The absence of content has no day. -/
theorem hasEarlyDay_null (t : ColumnType) : hasEarlyDay t .null = false := by
  induction t using mem_induction with
  | scalar t ht =>
    cases t with
    | array | tuple | map | nullable | lowCardinality => cases ht
    | _ => rfl
  | nullable t ih => exact ih
  | lowCardinality t ih => exact ih
  | _ => rfl

/-- What a type accepts is taken again, except for an early day in it. -/
theorem accept_again (t : ColumnType) {outer outer' : ColumnType} {v w : Value}
    (h : acceptAs outer t v = .ok w) :
    TakenUnless (hasEarlyDay t v) w (acceptAs outer' t w) := by
  induction t using mem_induction generalizing outer outer' v w with
  | scalar t ht => exact takenUnless_scalar ht h
  | array t ih =>
    cases v with
    | array items =>
      rcases of_map_eq_ok h with ⟨ws, hitems, rfl⟩
      exact (TakenUnless.list (fun _ _ => ih) hitems).map Value.array
    | _ => cases h
  | tuple ts ih =>
    cases v with
    | tuple items =>
      unfold acceptAs at h
      by_cases hlen : ts.length = items.length
      · rw [if_pos hlen] at h
        rcases of_map_eq_ok h with ⟨ws, hitems, rfl⟩
        rcases takenUnless_elements (fun e he _ _ => ih e he) hlen hitems with ⟨hlength, htaken⟩
        unfold acceptAs
        rw [if_pos hlength]
        exact htaken.map Value.tuple
      · rw [if_neg hlen] at h
        cases h
    | _ => cases h
  | map k x ihk ihx =>
    cases v with
    | map entries =>
      rcases of_map_eq_ok h with ⟨ws, hentries, rfl⟩
      refine (TakenUnless.list (fun e u he => ?_) hentries).map Value.map
      -- An entry is a key and a value, of which each is taken again.
      rcases of_bind_eq_ok he with ⟨u₁, hkey, hrest⟩
      rcases of_bind_eq_ok hrest with ⟨u₂, hvalue, hu⟩
      cases hu
      exact (ihk hkey).pair (ihx hvalue) Prod.mk
    | _ => cases h
  | nullable t ih =>
    have hinner {o : ColumnType} {u : Value} (hu : u ≠ .null) :
        acceptAs o (nullable t) u = acceptAs t t u := by
      cases u with
      | null => exact absurd rfl hu
      | _ => rfl
    by_cases hv : v = .null
    · subst hv
      cases h
      show TakenUnless (hasEarlyDay t .null) _ _
      rw [hasEarlyDay_null]
      rfl
    · rw [hinner hv] at h
      rw [hinner (accept_ne_null t hv h)]
      exact ih h
  | lowCardinality t ih => exact ih h

/-- The elements of a tuple that a table can have are types that a table can have. -/
theorem check_of_checkElements {seen : List String} {ts : List (Option String × ColumnType)}
    (h : checkElements seen ts = .ok ()) : ∀ e ∈ ts, check e.2 = .ok () := by
  induction ts generalizing seen with
  | nil =>
    intro e he
    cases he
  | cons t ts ih =>
    rcases t with ⟨name, t⟩
    have hparts : check t = .ok () ∧ ∃ seen', checkElements seen' ts = .ok () := by
      cases name with
      | none =>
        rcases of_bind_eq_ok h with ⟨⟨⟩, ht, hrest⟩
        exact ⟨ht, seen, hrest⟩
      | some n =>
        unfold checkElements at h
        rcases of_bind_eq_ok (of_guard h).2 with ⟨⟨⟩, ht, hrest⟩
        exact ⟨ht, n :: seen, hrest⟩
    rcases hparts with ⟨ht, seen', hrest⟩
    intro e he
    rcases List.mem_cons.1 he with rfl | he
    · exact ht
    · exact ih hrest e he

/-- Wrappers are checked with what they enclose. -/
theorem check_of_lowCardinality {t : ColumnType} (h : check (lowCardinality t) = .ok ()) :
    check t = .ok () := by
  cases t with
  | lowCardinality | array => cases h
  | _ => exact h

theorem acceptElements_defaults {ts : List (Option String × ColumnType)}
    (h : ∀ e ∈ ts, acceptAs e.2 e.2 e.2.default = .ok e.2.default) :
    ts.length = (elementDefaults ts).length ∧
      acceptElements ts (elementDefaults ts) = .ok (elementDefaults ts) := by
  induction ts with
  | nil => exact ⟨rfl, rfl⟩
  | cons t ts ih =>
    rcases ih fun e he => h e (List.mem_cons_of_mem t he) with ⟨hlength, haccept⟩
    refine ⟨congrArg Nat.succ hlength, ?_⟩
    unfold elementDefaults acceptElements
    rw [h t List.mem_cons_self, haccept]
    rfl

theorem acceptDecimal_zero (p q : UInt8) :
    acceptDecimal p q Decimal.zero = .ok (.decimal (Decimal.zero.rescale q.toNat)) := by
  have hround : Decimal.zero.round q.toNat = Decimal.zero := dif_pos (Nat.zero_le _)
  have hnot (n : Nat) : Decimal.zero.atLeast n = false := by
    rw [Decimal.atLeast_eq]
    exact decide_eq_false
      (Nat.not_le.2 (Nat.mul_pos (Nat.pow_pos (by decide)) (Nat.pow_pos (by decide))))
  rw [acceptDecimal_eq, hround, hnot, if_neg Bool.false_ne_true]

/-- The value of a column that was never given one is accepted as it is. -/
theorem accept_default (t : ColumnType) {outer : ColumnType} (h : check t = .ok ()) :
    acceptAs outer t t.default = .ok t.default := by
  induction t using mem_induction generalizing outer with
  | scalar t ht =>
    cases t with
    | array | tuple | map | nullable | lowCardinality => cases ht
    | word w =>
      have hzero : w.holds 0 = true := by
        rcases w with ⟨signed, width⟩
        cases signed <;> cases width <;> rfl
      have haccept := acceptInteger_ofWord outer hzero
      unfold default
      generalize Value.ofWord w 0 = u at haccept ⊢
      cases u with
      | null => cases haccept
      | _ => exact haccept
    | decimal p q => exact acceptDecimal_again (acceptDecimal_zero p q) rfl rfl
    | fixedString n =>
      show acceptScalar outer (fixedString n) (.string "") = _
      unfold acceptScalar
      exact if_neg (Nat.not_lt_zero n.toNat)
    | enum size members =>
      cases members with
      | nil => cases h
      | cons m members =>
        show toMember outer (m :: members) (.enum m.1) = _
        have hname : memberNamed? (m :: members) m.1 = some m.1 := by simp [memberNamed?]
        unfold toMember
        simp only [hname]
        rfl
    | _ => rfl
  | tuple ts ih =>
    have hcheck := check_of_checkElements h
    rcases acceptElements_defaults fun e he => ih e he (hcheck e he) with ⟨hlength, haccept⟩
    unfold default acceptAs
    rw [if_pos hlength, haccept]
    rfl
  | lowCardinality t ih => exact ih (check_of_lowCardinality h)
  | _ => rfl

end ColumnType

end ColumnStore
