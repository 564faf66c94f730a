import Mathlib.Algebra.Order.Ring.Int
import ColumnStore.Proofs.ColumnType.Again
import ColumnStore.Proofs.ColumnType.Inside
import ColumnStore.Proofs.Decimal.Rounding

/-!
# Integers That Types Take

Columns of integers, of decimals and of enumerations take integers, signed or unsigned words
of 64 binary digits. What such a column makes of a word is told by the number that it takes
the word for: the range, the digits before the point or the members decide on it, and what
comes out stands for this number. So a signed and an unsigned word of one number are taken
alike.

The number is the one of the word, with one exception. An enumeration compares its members
with the binary digits of a word, so it takes an unsigned word from two to the power
sixty-three on for a number below zero, and returns the member of that.

## Main definitions

* `ColumnType.HasRoomFor`: The integers that a type can hold.
* `ColumnType.StandsFor`: The values of a type that stand for an integer.
* `ColumnType.wraps`, `ColumnType.taken?`: Whether a type takes a word for another number
  than its own, and the number that it takes it for.
* `ColumnType.respelled`: A value with signed words in place of the unsigned ones.

## Theorems

* `ColumnType.toOption_acceptAs_integer`: What a type makes of a word.
* `ColumnType.toOption_acceptAs_respelled`: Signed and unsigned words are taken alike.
* `ColumnType.exists_accept_iff`: The words that a type accepts.
* `ColumnType.integers_of_accept`: Integers anywhere in a value stay what they are, but for
  those that wrap.
-/

namespace ColumnStore

namespace Decimal

/-- A decimal stands for a whole number, whatever places it has. -/
def IsInt (d : Decimal) (n : Int) : Prop :=
  d.units d.scale = n * 10 ^ d.scale

/-- Filling up places does not change the number. -/
theorem IsInt.rescale {d : Decimal} {n : Int} (h : d.IsInt n) (places : Nat) :
    (d.rescale places).IsInt n := by
  unfold IsInt at h
  rw [units_scale] at h
  unfold Decimal.rescale
  by_cases heq : d.scale = places
  · rw [if_pos heq, IsInt, units_scale, h]
  rw [if_neg heq]
  by_cases hzero : d.mantissa = 0
  · have hn : n = 0 := by
      have hpow : (10 : Int) ^ d.scale ≠ 0 := pow_ne_zero _ (by decide)
      have hproduct : n * 10 ^ d.scale = 0 := by simpa [hzero] using h.symm
      exact (mul_eq_zero.1 hproduct).resolve_right hpow
    rw [if_pos hzero, IsInt, units_scale, hn]
    simp
  rw [if_neg hzero]
  by_cases hlt : d.scale < places
  · rcases d.extend_spec (places - d.scale) with ⟨k, -, hm, hs, -⟩
    rw [if_pos hlt, IsInt, units_scale, negative_extend, hm, hs, pow_add, ← mul_assoc, ← h]
    cases d.negative <;> simp
  · rw [if_neg hlt, IsInt, units_scale, h]

end Decimal

/-- The signed word of a number in place of an unsigned one, if there is one. -/
def Value.respelled : Value → Value
  | .uint n => if n.toNat < 2 ^ 63 then .int n.toInt64 else .uint n
  | v => v

theorem Value.isNull_iff (v : Value) : v.isNull = true ↔ v = .null := by
  cases v <;> simp [isNull]

theorem Value.isNull_respelled (v : Value) : v.respelled.isNull = v.isNull := by
  cases v with
  | uint n =>
    rw [respelled]
    split <;> rfl
  | _ => rfl

namespace ColumnType

/-- The types that hold integers as numbers. -/
def holdsIntegers : ColumnType → Bool
  | word _ => true
  | decimal _ _ => true
  | enum _ _ => true
  | _ => false

/-- The integers that a type can hold: those of a range, those with as many digits as a
    decimal has before the point, and the values of the members of an enumeration. -/
def HasRoomFor : ColumnType → Int → Prop
  | word w, n => w.lower ≤ n ∧ n ≤ w.upper
  | decimal p s, n => n.natAbs * 10 ^ s.toNat < 10 ^ p.toNat
  | enum _ members, n => ∃ m ∈ members, m.2.toInt = n
  | _, _ => False

/-- The values of a type that stand for an integer. -/
def StandsFor : ColumnType → Value → Int → Prop
  | word _, v, n => v.toInt? = some n
  | decimal _ _, .decimal d, n => d.IsInt n
  | enum _ members, .enum name, n => ∃ m ∈ members, m.1 = name ∧ m.2.toInt = n
  | _, _, _ => False

/-- Whether a type takes a word for another number than its own. -/
def wraps : ColumnType → Value → Bool
  | enum _ _, .uint n => 2 ^ 63 ≤ n.toNat
  | _, _ => false

/-- The number that a type takes a word for. -/
def taken? : ColumnType → Value → Option Int
  | enum _ _, .uint n => some n.toInt64.toInt
  | _, v => v.toInt?

/-- The value of a type for a number. -/
def ofInt? : ColumnType → Int → Option Value
  | word w, n => (acceptWord w n).toOption
  | decimal p s, n => do
    let d ← Decimal.make? (n < 0) n.natAbs 0
    (acceptDecimal p s d).toOption
  | enum _ members, n => (members.find? fun m => m.2.toInt = n).map (.enum ·.1)
  | _, _ => none

variable {t : ColumnType} {v w : Value} {n : Int}

/-! ## One Word -/

theorem toInt_toInt64 (n : UInt64) :
    n.toInt64.toInt = if n.toNat < 2 ^ 63 then (n.toNat : Int) else n.toNat - 2 ^ 64 := by
  rw [← Int64.toInt_toBitVec, UInt64.toBitVec_toInt64, BitVec.toInt_eq_toNat_cond,
    UInt64.toNat_toBitVec]
  split <;> split <;> omega

/-- A type takes a word for the number that it is, unless it wraps. -/
theorem taken?_eq (hn : v.toInt? = some n) :
    t.taken? v = some (if t.wraps v then n - 2 ^ 64 else n) := by
  cases t with
  | enum size members =>
    cases v with
    | uint m =>
      cases hn
      by_cases hm : 2 ^ 63 ≤ m.toNat
      · simp only [taken?, wraps, toInt_toInt64, hm, decide_true, if_true, Nat.not_lt.2 hm, if_false]
      · simp only [taken?, wraps, toInt_toInt64, hm, decide_false, Nat.not_le.1 hm, if_true]
        rfl
    | int m => exact hn
    | _ => cases hn
  | _ => exact hn

/-- Members are found by the number that the binary digits of a signed word stand for. -/
theorem toOption_member {size : EnumSize} (members : List (String × Int16)) (k : Int64)
    (e : CodecError) : (match memberOfValue? members k with
      | some name => .ok (.enum name)
      | none => .error e : Except CodecError Value).toOption =
        ofInt? (enum size members) k.toInt := by
  have hsame : (fun m : String × Int16 => decide (m.2.toInt64 = k)) =
      fun m => decide (m.2.toInt = k.toInt) := by
    funext m
    rw [decide_eq_decide, ← Int16.toInt_toInt64, Int64.toInt_inj]
  rw [memberOfValue?, hsame, ofInt?]
  cases members.find? fun m => decide (m.2.toInt = k.toInt) with
  | none => rfl
  | some m => rfl

/-- What a type makes of a word depends on the number alone that it takes the word for. -/
theorem toOption_acceptAs_integer (outer : ColumnType) (ht : t.holdsIntegers = true)
    (hn : t.taken? v = some n) : (acceptAs outer t v).toOption = t.ofInt? n := by
  cases t with
  | word w =>
    have hint : v.toInt? = some n := hn
    cases v with
    | int | uint => exact congrArg Except.toOption (acceptInteger_of_toInt? outer hint)
    | _ => cases hn
  | decimal p s =>
    -- The decimal that is accepted is the one of the number.
    cases v with
    | int m =>
      cases hn
      have hmake : Decimal.make? (m.toInt < 0) m.toInt.natAbs 0 = some (Decimal.ofInt64 m) :=
        dif_pos _
      rw [ofInt?, hmake]
      rfl
    | uint m =>
      cases hn
      have hpos : ¬ (m.toNat : Int) < 0 := by omega
      have hmake : Decimal.make? ((m.toNat : Int) < 0) (m.toNat : Int).natAbs 0 =
          some (Decimal.ofUInt64 m) := by
        rw [decide_eq_false hpos]
        exact dif_pos _
      rw [ofInt?, hmake]
      rfl
    | _ => cases hn
  | enum size members =>
    cases v with
    | int m =>
      cases hn
      exact toOption_member members m _
    | uint m =>
      cases hn
      exact toOption_member members m.toInt64 _
    | _ => cases hn
  | _ => cases ht

theorem mul_pow_lt_pow_iff (m p q : Nat) : m * 10 ^ q < 10 ^ p ↔ m < 10 ^ (p - q) := by
  have hpos (k : Nat) : 0 < 10 ^ k := Nat.pow_pos (by decide)
  by_cases h : q ≤ p
  · have hsplit : 10 ^ p = 10 ^ (p - q) * 10 ^ q := by rw [← Nat.pow_add, Nat.sub_add_cancel h]
    rw [hsplit]
    exact Nat.mul_lt_mul_right (hpos q)
  · -- Without digits before the point there is room for zero alone.
    have hle : 10 ^ p ≤ 10 ^ q := Nat.pow_le_pow_right (by decide) (by omega)
    rw [Nat.sub_eq_zero_of_le (by omega), Nat.pow_zero, Nat.lt_one_iff]
    constructor
    · intro hlt
      by_contra hne
      have hmul : 1 * 10 ^ q ≤ m * 10 ^ q := Nat.mul_le_mul_right _ (Nat.one_le_iff_ne_zero.2 hne)
      omega
    · rintro rfl
      rw [Nat.zero_mul]
      exact hpos p

/-- A decimal without places is accepted if it has no more digits than the type before the
    point. -/
theorem acceptDecimal_whole {p s : UInt8} {d : Decimal} (hd : d.scale = 0) :
    acceptDecimal p s d = if d.mantissa * 10 ^ s.toNat < 10 ^ p.toNat
      then .ok (.decimal (d.rescale s.toNat)) else .error (.decimalRange p s d) := by
  have hround : d.round s.toNat = d := by rw [Decimal.round, dif_pos (by omega)]
  simp only [acceptDecimal_eq, hround, Decimal.atLeast_eq, hd, mul_pow_lt_pow_iff, Nat.pow_eq,
    Nat.pow_zero, Nat.mul_one, decide_eq_true_eq]
  by_cases hroom : d.mantissa < 10 ^ (p.toNat - s.toNat)
  · rw [if_pos hroom, if_neg (Nat.not_le.2 hroom)]
  · rw [if_neg hroom, if_pos (Nat.not_lt.1 hroom)]

theorem of_make? {negative : Bool} {m scale : Nat} {d : Decimal}
    (h : Decimal.make? negative m scale = some d) :
    d.negative = negative ∧ d.mantissa = m ∧ d.scale = scale := by
  unfold Decimal.make? at h
  split at h
  · cases h
    exact ⟨rfl, rfl, rfl⟩
  · cases h

/-- The value of a type for a number stands for it, and the type can hold the number. -/
theorem of_ofInt? {y : Value} (h : t.ofInt? n = some y) : t.HasRoomFor n ∧ t.StandsFor y n := by
  cases t with
  | word w =>
    rw [ofInt?, acceptWord] at h
    by_cases hholds : w.holds n = true
    · rw [if_pos hholds] at h
      cases h
      refine ⟨?_, toInt?_ofWord hholds⟩
      simpa only [HasRoomFor, WordType.holds, Bool.and_eq_true, decide_eq_true_eq] using hholds
    · rw [if_neg hholds] at h
      cases h
  | decimal p s =>
    rcases Option.bind_eq_some_iff.1 h with ⟨d, hmake, haccept⟩
    rcases of_make? hmake with ⟨hnegative, hmantissa, hscale⟩
    rw [acceptDecimal_whole hscale, hmantissa] at haccept
    by_cases hroom : n.natAbs * 10 ^ s.toNat < 10 ^ p.toNat
    · rw [if_pos hroom] at haccept
      cases haccept
      have hint : d.IsInt n := by
        rw [Decimal.IsInt, Decimal.units_scale, hnegative, hmantissa, hscale]
        simp only [decide_eq_true_eq]
        omega
      exact ⟨hroom, hint.rescale s.toNat⟩
    · rw [if_neg hroom] at haccept
      cases haccept
  | enum size members =>
    rcases Option.map_eq_some_iff.1 h with ⟨m, hfind, rfl⟩
    have hvalue : m.2.toInt = n := by simpa using List.find?_some hfind
    have hmem := List.mem_of_find?_eq_some hfind
    exact ⟨⟨m, hmem, hvalue⟩, ⟨m, hmem, rfl, hvalue⟩⟩
  | _ => cases h

/-- A type that can hold the number of a word has a value for it. -/
theorem exists_ofInt? (h : t.HasRoomFor n) (hn : n.natAbs < Decimal.limit) :
    ∃ y, t.ofInt? n = some y := by
  cases t with
  | word w =>
    have hholds : w.holds n = true := by
      simpa only [HasRoomFor, WordType.holds, Bool.and_eq_true, decide_eq_true_eq] using h
    rw [ofInt?, acceptWord, if_pos hholds]
    exact ⟨_, rfl⟩
  | decimal p s =>
    have hmake : Decimal.make? (n < 0) n.natAbs 0 = some ⟨n < 0, n.natAbs, 0, hn⟩ := dif_pos hn
    have hroom : n.natAbs * 10 ^ s.toNat < 10 ^ p.toNat := h
    rw [ofInt?, hmake, Option.bind_eq_bind, Option.bind_some, acceptDecimal_whole rfl,
      if_pos hroom]
    exact ⟨_, rfl⟩
  | enum size members =>
    rcases h with ⟨m, hm, hvalue⟩
    cases hfind : members.find? fun m => decide (m.2.toInt = n) with
    | none =>
      have hnone := List.find?_eq_none.1 hfind m hm
      simp [hvalue] at hnone
    | some found => exact ⟨_, by rw [ofInt?, hfind, Option.map_some]⟩
  | _ => cases h

/-! ## Signed and Unsigned Words -/

mutual

/-- A value with signed words in place of unsigned ones, where the type has integers. -/
def respelled : ColumnType → Value → Value
  | lowCardinality t, v => respelled t v
  | nullable t, v => respelled t v
  | array t, .array items => .array (items.map (respelled t))
  | tuple ts, .tuple items => .tuple (respelledElements ts items)
  | map k x, .map entries => .map (entries.map fun e => (respelled k e.1, respelled x e.2))
  | t, v => if t.holdsIntegers then v.respelled else v

/-- The elements of a tuple with signed words. -/
def respelledElements : List (Option String × ColumnType) → List Value → List Value
  | (_, t) :: ts, v :: vs => respelled t v :: respelledElements ts vs
  | _, vs => vs

end

theorem respelled_scalar (ht : IsScalar t) :
    t.respelled v = if t.holdsIntegers then v.respelled else v := by
  cases t with
  | array | tuple | map | nullable | lowCardinality => cases ht
  | _ => rfl

theorem isNull_respelled (t : ColumnType) (v : Value) : (t.respelled v).isNull = v.isNull := by
  induction t using mem_induction with
  | scalar t ht =>
    rw [respelled_scalar ht]
    split
    · exact v.isNull_respelled
    · rfl
  | nullable t ih => exact ih
  | lowCardinality t ih => exact ih
  | array t _ => cases v <;> rfl
  | tuple ts _ => cases v <;> rfl
  | map k x _ _ => cases v <;> rfl

theorem length_respelledElements (ts : List (Option String × ColumnType)) (vs : List Value) :
    (respelledElements ts vs).length = vs.length := by
  induction ts generalizing vs with
  | nil => rfl
  | cons t ts ih =>
    cases vs with
    | nil => rfl
    | cons v vs => rw [respelledElements, List.length_cons, List.length_cons, ih]

/-- A word is taken for the number that the signed one of its number is taken for. -/
theorem taken?_respelled (ht : t.holdsIntegers = true) : t.taken? v.respelled = t.taken? v := by
  cases v with
  | uint n =>
    rw [Value.respelled]
    by_cases hn : n.toNat < 2 ^ 63
    · have hint : n.toInt64.toInt = n.toNat := by rw [toInt_toInt64, if_pos hn]
      rw [if_pos hn]
      cases t with
      | word | decimal => exact congrArg some hint
      | enum => rfl
      | _ => cases ht
    · rw [if_neg hn]
  | _ => rfl

theorem toOption_acceptAs_respelled_scalar (outer : ColumnType) (ht : IsScalar t) (v : Value) :
    (acceptAs outer t (t.respelled v)).toOption = (acceptAs outer t v).toOption := by
  rw [respelled_scalar ht]
  split
  · next hholds =>
    cases v with
    | uint m =>
      have hn := taken?_eq (t := t) (v := .uint m) rfl
      rw [toOption_acceptAs_integer outer hholds hn,
        toOption_acceptAs_integer outer hholds ((taken?_respelled hholds).trans hn)]
    | _ => rfl
  · rfl

theorem toOption_acceptElements_respelled {ts : List (Option String × ColumnType)}
    (ih : ∀ e ∈ ts, ∀ outer v,
      (acceptAs outer e.2 (e.2.respelled v)).toOption = (acceptAs outer e.2 v).toOption)
    (vs : List Value) :
    (acceptElements ts (respelledElements ts vs)).toOption = (acceptElements ts vs).toOption := by
  induction ts generalizing vs with
  | nil => rfl
  | cons t ts ihts =>
    cases vs with
    | nil => rfl
    | cons v vs =>
      rw [respelledElements, acceptElements, acceptElements, toOption_bind, toOption_bind,
        ih t List.mem_cons_self]
      refine congrArg _ (funext fun w => ?_)
      rw [toOption_bind, toOption_bind, ihts fun e he => ih e (List.mem_cons_of_mem t he)]

/-- Words of one number are taken alike, wherever they stand in a value. -/
theorem toOption_acceptAs_respelled (outer t : ColumnType) (v : Value) :
    (acceptAs outer t (t.respelled v)).toOption = (acceptAs outer t v).toOption := by
  induction t using mem_induction generalizing outer v with
  | scalar t ht => exact toOption_acceptAs_respelled_scalar outer ht v
  | array t ih =>
    cases v with
    | array items =>
      rw [respelled, acceptAs, acceptAs, toOption_map, toOption_map, toOption_mapM, toOption_mapM,
        List.mapM_map]
      exact congrArg _ (congrArg (List.mapM · items) (funext fun v => ih t v))
    | _ => rfl
  | tuple ts ih =>
    cases v with
    | tuple items =>
      rw [respelled, acceptAs, acceptAs, length_respelledElements]
      by_cases hlength : ts.length = items.length
      · rw [if_pos hlength, if_pos hlength, toOption_map, toOption_map,
          toOption_acceptElements_respelled fun e he outer v => ih e he outer v]
      · rw [if_neg hlength, if_neg hlength]
    | _ => rfl
  | map k x ihk ihx =>
    cases v with
    | map entries =>
      rw [respelled, acceptAs, acceptAs, toOption_map, toOption_map, toOption_mapM, toOption_mapM,
        List.mapM_map]
      refine congrArg _ (congrArg (List.mapM · entries) (funext fun e => ?_))
      rw [Function.comp_apply, toOption_bind, toOption_bind, ihk k]
      refine congrArg _ (funext fun u => ?_)
      rw [toOption_bind, toOption_bind, ihx x]
    | _ => rfl
  | nullable t ih =>
    -- The wrapper looks for the absence of content, which respelling does not change.
    have hnull := isNull_respelled t v
    by_cases hv : v = .null
    · rw [hv] at hnull ⊢
      rw [respelled, (Value.isNull_iff _).1 hnull]
    · have hv' : t.respelled v ≠ .null := by
        rwa [Ne, ← Value.isNull_iff, hnull, Value.isNull_iff]
      rw [respelled, acceptAs_nullable hv, acceptAs_nullable hv']
      exact ih t v
  | lowCardinality t ih => exact ih outer v

/-! ## Words Anywhere in a Value -/

theorem eq_of_wraps (hwraps : t.wraps v = true) : ∃ size members m,
    t = enum size members ∧ v = .uint m ∧ 2 ^ 63 ≤ m.toNat := by
  cases t with
  | enum size members =>
    cases v with
    | uint m => exact ⟨size, members, m, rfl, rfl, by simpa [wraps] using hwraps⟩
    | _ => cases hwraps
  | _ => cases hwraps

/-- No type has room for the number of a word that it wraps. -/
theorem not_hasRoomFor_of_wraps (hwraps : t.wraps v = true) (hn : v.toInt? = some n) :
    ¬ t.HasRoomFor n := by
  rcases eq_of_wraps hwraps with ⟨size, members, m, rfl, rfl, hm⟩
  cases hn
  rintro ⟨member, -, hvalue⟩
  have hsmall := member.2.toInt_lt
  omega

theorem natAbs_lt_of_toInt? (hn : v.toInt? = some n) : n.natAbs < Decimal.limit := by
  cases v with
  | int m =>
    cases hn
    exact (Decimal.ofInt64 m).mantissa_lt
  | uint m =>
    cases hn
    exact (Decimal.ofUInt64 m).mantissa_lt
  | _ => cases hn

/-- A word that does not wrap is accepted exactly if there is room for its number. -/
theorem exists_accept_iff (ht : t.holdsIntegers = true) (hn : v.toInt? = some n)
    (hwraps : t.wraps v = false) : (∃ w, t.accept v = .ok w) ↔ t.HasRoomFor n := by
  have htaken := taken?_eq (t := t) hn
  rw [hwraps, if_neg Bool.false_ne_true] at htaken
  have hof : (t.accept v).toOption = t.ofInt? n := toOption_acceptAs_integer t ht htaken
  constructor
  · rintro ⟨w, hw⟩
    exact (of_ofInt? (hof.symm.trans (toOption_eq_some_iff.2 hw))).1
  · intro hroom
    rcases exists_ofInt? hroom (natAbs_lt_of_toInt? hn) with ⟨y, hy⟩
    exact ⟨y, toOption_eq_some_iff.1 (hof.trans hy)⟩

/-- Wherever a column of integers, of decimals or of an enumeration stands in a type, an
    accepted word has become what stands for its number, which the column has room for,
    unless the word wraps. Then it has become what stands for another number. A value with
    words of the same numbers and other signs is taken alike. -/
theorem integers_of_accept (h : t.accept v = .ok w) :
    (∀ path s x n, t.inside? path = some s → v.inside? path = some x →
      s.holdsIntegers = true → x.toInt? = some n → ∃ y, w.inside? path = some y ∧
        (s.HasRoomFor n ∧ s.StandsFor y n ↔ s.wraps x = false) ∧
        (s.wraps x = true → s.StandsFor y (n - 2 ^ 64))) ∧
      ∀ v', t.respelled v' = t.respelled v → t.accept v' = .ok w := by
  constructor
  · intro path s x n hs hx hholds hn
    have hne : x ≠ .null := by
      rintro rfl
      cases hn
    rcases exists_inside_of_acceptAs h hs hx hne with ⟨y, hy, o, hacceptx⟩
    refine ⟨y, hy, ?_⟩
    have htaken := taken?_eq (t := s) hn
    have hof := toOption_acceptAs_integer o hholds htaken
    rcases of_ofInt? (hof.symm.trans (toOption_eq_some_iff.2 hacceptx)) with ⟨hroom, hstands⟩
    -- Whatever the word was taken for, there is room for it, and the result stands for it.
    cases hwraps : s.wraps x with
    | true =>
      rw [hwraps, if_pos rfl] at hstands
      have hnot := not_hasRoomFor_of_wraps hwraps hn
      exact ⟨iff_of_false (fun hboth => hnot hboth.1) nofun, fun _ => hstands⟩
    | false =>
      rw [hwraps] at hroom hstands
      exact ⟨iff_of_true ⟨hroom, hstands⟩ rfl, nofun⟩
  · intro v' hv'
    have halike : (t.accept v').toOption = (t.accept v).toOption := by
      rw [accept, accept, ← toOption_acceptAs_respelled t t v', hv', toOption_acceptAs_respelled]
    exact toOption_eq_some_iff.1 (halike.trans (toOption_eq_some_iff.2 h))

/-- A map from members to arrays of tuples, with an integer that may be absent and a decimal in
    each. -/
def ledger : ColumnType :=
  map (enum .byte [("in", 1), ("out", -1)]) (array (tuple [
    (none, nullable (word ⟨true, .w16⟩)), (some "amount", lowCardinality (decimal 9 2))]))

/-- Signed and unsigned words are taken alike inside of a map. -/
theorem integers_of_ledger :
    (∃ y, (Value.map [(.enum "out", .array [.tuple [.int 300, .decimal ⟨false, 700, 2, by decide⟩]])]
        ).inside? [.content 0, .item 0, .element 1] = some y ∧
      (decimal 9 2).HasRoomFor 7 ∧ (decimal 9 2).StandsFor y 7) ∧
    ledger.accept (.map [(.int (-1), .array [.tuple [.int 300, .int 7]])]) =
      .ok (.map [(.enum "out", .array [.tuple [.int 300, .decimal ⟨false, 700, 2, by decide⟩]])]) := by
  have h := integers_of_accept (t := ledger)
    (v := .map [(.int (-1), .array [.tuple [.uint 300, .uint 7]])])
    (w := .map [(.enum "out", .array [.tuple [.int 300, .decimal ⟨false, 700, 2, by decide⟩]])])
    (by rfl)
  rcases h.1 [.content 0, .item 0, .element 1] (decimal 9 2) (.uint 7) 7 (by rfl) (by rfl) (by rfl)
    (by rfl) with ⟨y, hy, hiff, -⟩
  exact ⟨⟨y, hy, hiff.2 rfl⟩, h.2 _ (by rfl)⟩

/-- The largest unsigned word is the member with the value minus one. -/
theorem member_of_largest_word :
    (enum .byte [("a", -1)]).accept (.uint 0xFFFFFFFFFFFFFFFF) = .ok (.enum "a") ∧
      ¬ (enum .byte [("a", -1)]).HasRoomFor 0xFFFFFFFFFFFFFFFF := by
  refine ⟨by rfl, ?_⟩
  rintro ⟨m, hm, hvalue⟩
  rcases List.mem_singleton.1 hm with rfl
  exact absurd hvalue (by decide)

end ColumnType

end ColumnStore
