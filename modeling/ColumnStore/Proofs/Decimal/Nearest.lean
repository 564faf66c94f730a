import ColumnStore.Proofs.ColumnType.RoundTrip
import Mathlib.Algebra.Order.Field.Basic
import Mathlib.Data.Rat.Cast.Order
import Mathlib.Tactic.Linarith
import Mathlib.Tactic.NormNum

/-!
# Correct Rounding of Decimals

A column of decimals stores the decimal that is nearest to the one that it is given, of two
that are equally near the one with the even last place, or it refuses the value. What decides
is the rounded number: one that has too many digits before the point only after rounding is
refused, and one that has them only in its text is not.

The digits are counted by comparing with a power of ten. From twenty-nine digits on there is
no such decimal, and no need for one, since no mantissa is as large.

What is stored has all places of the column if there is room for them, and is the same number
if there is not.

## Main definitions

* `Number.IsNearestEven`: The nearest whole number, of two the even one.
* `Decimal.toRat`: The number that a decimal stands for.

## Theorems

* `Number.isNearestEven_halfEven`: A rounded quotient is the nearest whole number.
* `Decimal.isNearestEven_round`: A rounded decimal is the nearest one.
* `Decimal.toRat_rescale`: Places that are filled up do not change the number.
* `ColumnType.acceptDecimal_eq_ok_iff`: Which decimals a column accepts, and what it makes
  of them.
* `ColumnType.accept_decimal_rounds`: A column of decimals stores the nearest decimal, which
  is read back, or refuses the value.
-/

namespace ColumnStore

namespace Number

/-- The whole number that is nearest to a number. Of two that are equally near it is the
    even one. -/
def IsNearestEven (x : ℚ) (n : ℤ) : Prop :=
  |x - n| ≤ 1 / 2 ∧ (|x - n| = 1 / 2 → Even n)

/-- No number has two nearest whole numbers. -/
theorem IsNearestEven.unique {x : ℚ} {m n : ℤ} (hm : IsNearestEven x m)
    (hn : IsNearestEven x n) : m = n := by
  by_contra hne
  wlog hlt : m < n generalizing m n
  · exact this hn hm (Ne.symm hne) (by omega)
  -- The number lies in the middle between the two, which are neighbours.
  have hmx := abs_le.1 hm.1
  have hnx := abs_le.1 hn.1
  have hnext : (m : ℚ) + 1 ≤ n := by exact_mod_cast hlt
  have hmtie : |x - m| = 1 / 2 := by
    rw [abs_of_nonneg (by linarith)]
    linarith
  have hntie : |x - n| = 1 / 2 := by
    rw [abs_of_nonpos (by linarith)]
    linarith
  have hone : n - m = 1 := by
    have hle : (n : ℚ) ≤ m + 1 := by linarith
    have hle' : n ≤ m + 1 := by exact_mod_cast hle
    omega
  have heven := (hn.2 hntie).sub (hm.2 hmtie)
  rw [hone] at heven
  exact absurd heven (by decide)

/-- A whole number is nearest to itself. -/
theorem IsNearestEven.self (n : ℤ) : IsNearestEven n n := by
  constructor
  · simp
  · intro h
    simp at h

theorem IsNearestEven.neg {x : ℚ} {n : ℤ} (h : IsNearestEven x n) : IsNearestEven (-x) (-n) := by
  have hsame : |-x - ((-n : ℤ) : ℚ)| = |x - n| := by
    rw [Int.cast_neg, ← neg_add', abs_neg, sub_eq_add_neg]
  rw [IsNearestEven, hsame]
  exact ⟨h.1, fun htie => (h.2 htie).neg⟩

/-- Rounding a half to even gives the nearest whole number. -/
theorem isNearestEven_halfEven (num : Nat) {den : Nat} (hden : 0 < den) :
    IsNearestEven ((num : ℚ) / den) (halfEven num den) := by
  have hpos : (0 : ℚ) < den := by exact_mod_cast hden
  have hsplit := Nat.div_add_mod num den
  have hrest := Nat.mod_lt num hden
  -- The distance in units of one over the divisor is a whole number.
  have hdist (n : Nat) : |(num : ℚ) / den - ((n : ℤ) : ℚ)| =
      ((|(num : ℤ) - den * n| : ℤ) : ℚ) / den := by
    rw [Int.cast_natCast, div_sub' hpos.ne', abs_div, abs_of_pos hpos]
    push_cast
    rfl
  have hle (n : Nat) : |(num : ℚ) / den - ((n : ℤ) : ℚ)| ≤ 1 / 2 ↔
      2 * |(num : ℤ) - den * n| ≤ den := by
    rw [hdist, div_le_div_iff₀ hpos two_pos, mul_comm, one_mul]
    exact_mod_cast Iff.rfl
  have heq (n : Nat) : |(num : ℚ) / den - ((n : ℤ) : ℚ)| = 1 / 2 ↔
      2 * |(num : ℤ) - den * n| = den := by
    rw [hdist, div_eq_div_iff hpos.ne' two_ne_zero, mul_comm, one_mul]
    exact_mod_cast Iff.rfl
  have hnum : (num : ℤ) = den * (num / den : Nat) + (num % den : Nat) := by
    exact_mod_cast hsplit.symm
  rw [IsNearestEven, hle, heq, hnum]
  unfold halfEven
  dsimp only
  generalize num / den = q
  generalize num % den = r at hrest
  -- The distance to the whole quotient is the remainder, that to the next number what
  -- the remainder lacks.
  have hdown : |(den * q + r : ℤ) - den * q| = r := by
    rw [add_sub_cancel_left]
    exact abs_of_nonneg (by omega)
  have hup : |(den * q + r : ℤ) - den * (q + 1 : Nat)| = den - r := by
    rw [Nat.cast_succ, mul_add, mul_one, add_sub_add_left_eq_sub, abs_of_nonpos (by omega)]
    omega
  by_cases hlow : 2 * r < den
  · rw [if_pos hlow, hdown]
    exact ⟨by omega, fun htie => by omega⟩
  rw [if_neg hlow]
  by_cases hhigh : den < 2 * r
  · rw [if_pos hhigh, hup]
    exact ⟨by omega, fun htie => by omega⟩
  rw [if_neg hhigh]
  by_cases heven : q % 2 = 0
  · rw [if_pos heven, hdown]
    exact ⟨by omega, fun _ => Int.even_iff.2 (by omega)⟩
  · rw [if_neg heven, hup]
    exact ⟨by omega, fun _ => Int.even_iff.2 (by omega)⟩

end Number

namespace Decimal

/-- The number that a decimal stands for. -/
def toRat (d : Decimal) : ℚ :=
  d.units d.scale / 10 ^ d.scale

theorem ten_pow_pos (n : Nat) : (0 : ℚ) < 10 ^ n := pow_pos (by norm_num) n

theorem toRat_eq (d : Decimal) :
    d.toRat = (if d.negative then -(d.mantissa : ℚ) else d.mantissa) / 10 ^ d.scale := by
  rw [toRat, units_scale]
  split <;> push_cast <;> rfl

theorem abs_toRat (d : Decimal) : |d.toRat| = d.mantissa / 10 ^ d.scale := by
  rw [toRat_eq, abs_div, abs_of_pos (ten_pow_pos d.scale)]
  split
  · rw [abs_neg, Nat.abs_cast]
  · rw [Nat.abs_cast]

/-- A decimal in units of more places than it has. -/
theorem units_eq {d : Decimal} {places : Nat} (h : d.scale ≤ places) :
    (d.units places : ℚ) = d.toRat * 10 ^ places := by
  have hsplit : (10 : ℚ) ^ places = 10 ^ d.scale * 10 ^ (places - d.scale) := by
    rw [← pow_add, Nat.add_sub_cancel' h]
  rw [toRat_eq, hsplit, ← mul_assoc, div_mul_cancel₀ _ (ten_pow_pos d.scale).ne']
  unfold units
  cases d.negative <;> simp

theorem natAbs_units (d : Decimal) (places : Nat) :
    (d.units places).natAbs = d.mantissa * 10 ^ (places - d.scale) := by
  unfold units
  cases d.negative <;> simp [Int.natAbs_mul, Int.natAbs_pow]

theorem agrees_iff (a b : Decimal) : a.agrees b = true ↔ a.toRat = b.toRat := by
  have hpos := (ten_pow_pos (max a.scale b.scale)).ne'
  simp only [agrees, decide_eq_true_eq]
  rw [← Int.cast_inj (α := ℚ), units_eq (Nat.le_max_left _ _), units_eq (Nat.le_max_right _ _)]
  exact mul_left_inj' hpos

theorem reaches_iff (a b : Decimal) : a.reaches b = true ↔ |b.toRat| ≤ |a.toRat| := by
  rw [abs_toRat, abs_toRat, div_le_div_iff₀ (ten_pow_pos _) (ten_pow_pos _), reaches,
    decide_eq_true_eq]
  exact_mod_cast Iff.rfl

theorem atLeast_iff (d : Decimal) (n : Nat) : d.atLeast n = true ↔ (10 : ℚ) ^ n ≤ |d.toRat| := by
  rw [abs_toRat, le_div_iff₀ (ten_pow_pos d.scale), atLeast_eq, decide_eq_true_eq]
  exact_mod_cast Iff.rfl

/-- Filling up the places of a decimal does not change the number. -/
theorem toRat_rescale (d : Decimal) (places : Nat) : (d.rescale places).toRat = d.toRat := by
  unfold rescale
  by_cases heq : d.scale = places
  · rw [if_pos heq]
  rw [if_neg heq]
  by_cases hzero : d.mantissa = 0
  · rw [if_pos hzero, toRat_eq, toRat_eq, hzero]
    simp
  rw [if_neg hzero]
  by_cases hlt : d.scale < places
  · rcases d.extend_spec (places - d.scale) with ⟨k, -, hm, hs, -⟩
    have hk := (ten_pow_pos k).ne'
    rw [if_pos hlt, toRat_eq, toRat_eq, negative_extend, hm, hs, pow_add, Nat.cast_mul,
      Nat.cast_pow, Nat.cast_ofNat]
    rw [← mul_div_mul_right _ ((10 : ℚ) ^ d.scale) hk]
    cases d.negative <;> simp
  · rw [if_neg hlt]

/-- Rounding a decimal gives the nearest number of units. -/
theorem isNearestEven_round (d : Decimal) (places : Nat) :
    Number.IsNearestEven (d.toRat * 10 ^ places) ((d.round places).units places) := by
  unfold round
  by_cases h : d.scale ≤ places
  · rw [dif_pos h, ← units_eq h]
    exact Number.IsNearestEven.self _
  rw [dif_neg h]
  have hunit : 0 < 10 ^ (d.scale - places) := Nat.pow_pos (by decide)
  have hnearest := Number.isNearestEven_halfEven d.mantissa hunit
  have hsplit : (10 : ℚ) ^ d.scale = ((10 ^ (d.scale - places) : Nat) : ℚ) * 10 ^ places := by
    rw [Nat.cast_pow, Nat.cast_ofNat, ← pow_add, Nat.sub_add_cancel (by omega)]
  have hscaled : d.toRat * 10 ^ places = if d.negative
      then -((d.mantissa : ℚ) / (10 ^ (d.scale - places) : Nat))
      else (d.mantissa : ℚ) / (10 ^ (d.scale - places) : Nat) := by
    rw [toRat_eq, hsplit, div_mul_eq_mul_div, mul_div_mul_right _ _ (ten_pow_pos places).ne']
    cases d.negative <;> simp [neg_div]
  rw [hscaled]
  simp only [units, Nat.sub_self, Nat.pow_eq, pow_zero]
  cases d.negative with
  | false => simpa using hnearest
  | true =>
    by_cases hzero : Number.halfEven d.mantissa (10 ^ (d.scale - places)) = 0
    · rw [hzero] at hnearest
      simpa [hzero] using hnearest.neg
    · simpa [hzero] using hnearest.neg

/-- A decimal whose number of units fits the mantissa is filled up to all places. -/
theorem scale_rescale {d : Decimal} {places : Nat} (hplaces : places ≤ maxScale)
    (hscale : d.scale ≤ places) (hroom : (d.units places).natAbs < limit) :
    (d.rescale places).scale = places := by
  have hsettled := settled_rescale hscale
  have hunits : (d.rescale places).units places = d.units places := by
    rw [← Int.cast_inj (α := ℚ), units_eq hsettled.scale_le, units_eq hscale, toRat_rescale]
  rcases hsettled with h | ⟨-, h⟩ | ⟨-, hlt, hfull⟩
  · exact h
  · rw [h, Nat.min_eq_left hplaces]
  · -- A place is missing, so that there would have been room for another zero.
    exfalso
    rw [← hunits, natAbs_units] at hroom
    have hpow : 10 ^ 1 ≤ 10 ^ (places - (d.rescale places).scale) :=
      Nat.pow_le_pow_right (by decide) (by omega)
    have hmul := Nat.mul_le_mul_left (d.rescale places).mantissa hpow
    omega

/-- To count up to so many digits is to compare with a decimal, the power of ten. -/
theorem exists_powerOfTen? {n : Nat} (hn : n < 29) :
    ∃ limit, powerOfTen? n = some limit ∧ limit.toRat = 10 ^ n ∧
      ∀ d : Decimal, d.atLeast n = true ↔ limit.toRat ≤ |d.toRat| := by
  rcases powerOfTen?_of_lt hn with ⟨room, hpower⟩
  have hnumber : (⟨false, Nat.pow 10 n, 0, room⟩ : Decimal).toRat = 10 ^ n := by
    simp [toRat_eq]
  refine ⟨_, hpower, hnumber, fun d => ?_⟩
  rw [atLeast, hpower, Option.any_some, reaches_iff, hnumber, abs_of_pos (ten_pow_pos n)]

end Decimal

namespace ColumnType

/-- What a column of decimals makes of a decimal is the decimal rounded to its places, if
    that has no more digits before the point than the column. -/
theorem acceptDecimal_eq_ok_iff (p s : UInt8) (d : Decimal) (w : Value) :
    acceptDecimal p s d = .ok w ↔
      |(d.round s.toNat).toRat| < 10 ^ (p.toNat - s.toNat) ∧
        w = .decimal ((d.round s.toNat).rescale s.toNat) := by
  rw [← not_le, ← Decimal.atLeast_iff, acceptDecimal_eq]
  cases (d.round s.toNat).atLeast (p.toNat - s.toNat) with
  | false => simp [eq_comm]
  | true => simp

/-- Whatever decimal a column of decimals is given, there is one nearest number of units of
    its last place, of two that are equally near the even one. The decimal is accepted exactly if
    this number has no more digits before the point than the column. Then it is stored: with
    all places of the column if there is room for them, and always so that it is read back
    from what is written and accepted again as it is. The power of ten that bounds it is a
    decimal wherever there is a comparison with it. -/
theorem accept_decimal_rounds {p s : UInt8} (hs : s.toNat ≤ Decimal.maxScale) (d : Decimal) :
    ∃ n : ℤ, (∀ m, Number.IsNearestEven (d.toRat * 10 ^ s.toNat) m ↔ m = n) ∧
      ((∃ w, (decimal p s).accept (.decimal d) = .ok w) ↔
        |(n : ℚ) / 10 ^ s.toNat| < 10 ^ (p.toNat - s.toNat)) ∧
      (∀ w, (decimal p s).accept (.decimal d) = .ok w → ∃ e, w = .decimal e ∧
        e.toRat = n / 10 ^ s.toNat ∧
        (n.natAbs < Decimal.limit → e.scale = s.toNat) ∧
        (∃ t u, (decimal p s).encode (.decimal d) = .ok t ∧ (decimal p s).encode w = .ok t ∧
          (decimal p s).decodeSql t = .ok (.decimal u) ∧ u.toRat = e.toRat) ∧
        (decimal p s).accept w = .ok w) ∧
      (p.toNat - s.toNat < 29 →
        ∃ limit, Decimal.powerOfTen? (p.toNat - s.toNat) = some limit ∧
          limit.toRat = 10 ^ (p.toNat - s.toNat) ∧
          ∀ r : Decimal, r.atLeast (p.toNat - s.toNat) = true ↔ limit.toRat ≤ |r.toRat|) := by
  have hnearest := d.isNearestEven_round s.toNat
  have hscale := d.scale_round_le s.toNat
  have hnumber : (d.round s.toNat).toRat = (d.round s.toNat).units s.toNat / 10 ^ s.toNat :=
    eq_div_of_mul_eq (Decimal.ten_pow_pos _).ne' (Decimal.units_eq hscale).symm
  refine ⟨(d.round s.toNat).units s.toNat, fun m => ?_, ?_, fun w hw => ?_, fun hdigits => ?_⟩
  · exact ⟨fun hm => hm.unique hnearest, fun hm => hm ▸ hnearest⟩
  · rw [← hnumber]
    exact (exists_congr (acceptDecimal_eq_ok_iff p s d)).trans
      ⟨fun ⟨_, hw⟩ => hw.1, fun h => ⟨_, h, rfl⟩⟩
  · obtain rfl := ((acceptDecimal_eq_ok_iff p s d w).1 hw).2
    have hagain : (decimal p s).accept (.decimal ((d.round s.toNat).rescale s.toNat)) =
        .ok (.decimal ((d.round s.toNat).rescale s.toNat)) := acceptDecimal_again hw rfl rfl
    have hfit : (decimal p s).decimalsFit = true := by simpa [decimalsFit] using hs
    rcases (returns_of_acceptAs (decimal p s) hfit hw rfl).decodeSql_sqlOf with ⟨u, hread, hsame⟩
    refine ⟨_, rfl, ?_, Decimal.scale_rescale hs hscale, ?_, hagain⟩
    · rw [Decimal.toRat_rescale, hnumber]
    · cases u with
      | decimal u =>
        refine ⟨_, u, ?_, ?_, hread, (Decimal.agrees_iff _ _).1 hsame⟩
        · rw [encode, hw]
          rfl
        · rw [encode, hagain]
          rfl
      | _ => cases hsame
  · exact Decimal.exists_powerOfTen? hdigits

/-- An eighth lies in the middle between two hundredths, and is stored as the even one. -/
theorem accept_eighth_rounds :
    ∃ e, (decimal 9 2).accept (.decimal ⟨false, 125, 3, by decide⟩) = .ok (.decimal e) ∧
      e.toRat = 12 / 10 ^ 2 ∧ e.scale = 2 := by
  rcases accept_decimal_rounds (p := 9) (s := 2) (by decide) ⟨false, 125, 3, by decide⟩ with
    ⟨n, hn, haccept, hall, -⟩
  have hplaces : UInt8.toNat 2 = 2 := rfl
  have hdigits : UInt8.toNat 9 = 9 := rfl
  rw [hplaces] at hn haccept hall
  have htwelve : (12 : ℤ) = n := by
    refine (hn 12).1 ⟨?_, fun _ => by decide⟩
    norm_num [Decimal.toRat_eq]
  subst htwelve
  rcases haccept.2 (by rw [hdigits]; norm_num) with ⟨w, hw⟩
  rcases hall w hw with ⟨e, rfl, hnumber, hscale, -⟩
  exact ⟨e, hw, by simpa using hnumber, hscale (by decide)⟩

end ColumnType

end ColumnStore
