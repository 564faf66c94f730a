import ColumnStore.ColumnType.Accept
import ColumnStore.Proofs.Decimal.Reading

/-!
# Decimals of a Column

A decimal that a column of decimals has accepted is accepted by it again, and stays
as it is. Accepting rounds a decimal to the places of the type and then fills up the
places that are missing, as far as the mantissa has room. What comes out is settled:
rounding and filling up find nothing left to do.

## Main definitions

* `Decimal.Settled`: A decimal that has all the places it can have.

## Theorems

* `Decimal.settled_rescale`: Filling up the places of a decimal settles it.
* `Decimal.rescale_of_settled`: A settled decimal has no places to be filled up.
* `Decimal.atLeast_rescale`: Filling up places does not change the number.
* `ColumnType.acceptDecimal_eq`: A column of decimals compares with a power of ten.
* `ColumnType.acceptDecimal_again`: A decimal that was accepted is accepted again.
-/

namespace ColumnStore

namespace Decimal

/-- A decimal that has a number of places, or as many of them as there is room for: a
    zero has room for the places that decimals are created with, any other mantissa as
    long as it does not outgrow its limit. -/
def Settled (places : Nat) (d : Decimal) : Prop :=
  d.scale = places ∨ d.mantissa = 0 ∧ d.scale = min places maxScale ∨
    d.mantissa ≠ 0 ∧ d.scale < places ∧ limit ≤ 10 * d.mantissa

theorem Settled.scale_le {places : Nat} {d : Decimal} (h : Settled places d) :
    d.scale ≤ places := by
  rcases h with h | h | h
  · omega
  · have hmin := h.2
    omega
  · omega

/-- Zeros that are appended multiply the mantissa by ten each, until there is no more
    room. -/
theorem extend_spec (d : Decimal) (n : Nat) : ∃ k, k ≤ n ∧
    (d.extend n).mantissa = d.mantissa * 10 ^ k ∧ (d.extend n).scale = d.scale + k ∧
      (k = n ∨ limit ≤ 10 * (d.extend n).mantissa) := by
  -- Induction on the zeros that are still to be appended.
  induction n generalizing d with
  | zero => exact ⟨0, Nat.le_refl 0, by simp [extend], rfl, Or.inl rfl⟩
  | succ n ih =>
    unfold extend
    by_cases h : 10 * d.mantissa < limit
    · rw [dif_pos h]
      rcases ih ⟨d.negative, 10 * d.mantissa, d.scale + 1, h⟩ with ⟨k, hk, hm, hs, hend⟩
      simp only at hm hs
      refine ⟨k + 1, by omega, ?_, ?_, ?_⟩
      · rw [hm, Nat.pow_succ, Nat.mul_comm 10 d.mantissa, Nat.mul_assoc, Nat.mul_comm 10]
      · rw [hs]
        omega
      · rcases hend with hend | hend
        · exact Or.inl (by omega)
        · exact Or.inr hend
    · -- There is no room for another one, so that the decimal stays as it is.
      rw [dif_neg h]
      exact ⟨0, by omega, by simp, rfl, Or.inr (by omega)⟩

theorem units_scale (d : Decimal) :
    d.units d.scale = if d.negative then -(d.mantissa : Int) else d.mantissa := by
  simp [units]

theorem negative_extend (d : Decimal) (n : Nat) : (d.extend n).negative = d.negative := by
  induction n generalizing d with
  | zero => rfl
  | succ n ih =>
    unfold extend
    split
    · rw [ih]
    · rfl

/-- Filling up the places of a decimal settles it. -/
theorem settled_rescale {d : Decimal} {places : Nat} (h : d.scale ≤ places) :
    Settled places (d.rescale places) := by
  unfold rescale
  by_cases heq : d.scale = places
  · rw [if_pos heq]
    exact Or.inl heq
  rw [if_neg heq]
  by_cases hzero : d.mantissa = 0
  · rw [if_pos hzero]
    exact Or.inr (Or.inl ⟨rfl, rfl⟩)
  have hlt : d.scale < places := by omega
  rw [if_neg hzero, if_pos hlt]
  rcases d.extend_spec (places - d.scale) with ⟨k, hk, hm, hs, hend⟩
  have hpos : 0 < d.mantissa * 10 ^ k := Nat.mul_pos (by omega) (Nat.pow_pos (by decide))
  -- Either all places are filled up or the mantissa is full.
  by_cases hall : k = places - d.scale
  · exact Or.inl (by omega)
  · exact Or.inr (Or.inr ⟨by omega, by omega, by omega⟩)

/-- A settled decimal has no places to be filled up. -/
theorem rescale_of_settled {d : Decimal} {places : Nat} (h : Settled places d) :
    d.rescale places = d := by
  unfold rescale
  by_cases heq : d.scale = places
  · rw [if_pos heq]
  rw [if_neg heq]
  rcases h with h | ⟨hzero, hscale⟩ | ⟨hne, hlt, hfull⟩
  · exact absurd h heq
  · rw [if_pos hzero]
    rcases d with ⟨negative, mantissa, scale, hlimit⟩
    simp only at hzero hscale
    subst hzero hscale
    rfl
  · rw [if_neg hne, if_pos hlt]
    rcases Nat.exists_eq_succ_of_ne_zero (by omega : places - d.scale ≠ 0) with ⟨n, hn⟩
    rw [hn, extend, dif_neg (by omega)]

/-- Filling up places does not change the size of a number. -/
theorem atLeast_rescale (d : Decimal) (places n : Nat) :
    (d.rescale places).atLeast n = d.atLeast n := by
  unfold rescale
  by_cases heq : d.scale = places
  · rw [if_pos heq]
  rw [if_neg heq]
  by_cases hzero : d.mantissa = 0
  · have hpos (m : Nat) : 0 < Nat.pow 10 m := Nat.pow_pos (by decide)
    have hnot (s : Nat) : ¬ Nat.pow 10 n * Nat.pow 10 s ≤ 0 :=
      Nat.not_le.2 (Nat.mul_pos (hpos n) (hpos s))
    rw [if_pos hzero]
    simp only [atLeast_eq, hzero, hnot, decide_false]
  rw [if_neg hzero]
  by_cases hlt : d.scale < places
  · rcases d.extend_spec (places - d.scale) with ⟨k, -, hm, hs, -⟩
    rw [if_pos hlt]
    simp only [atLeast_eq, hm, hs, Nat.pow_eq, Nat.pow_add, ← Nat.mul_assoc]
    rw [decide_eq_decide]
    exact Nat.mul_le_mul_right_iff (Nat.pow_pos (by decide))
  · rw [if_neg hlt]

theorem scale_round_le (d : Decimal) (places : Nat) : (d.round places).scale ≤ places := by
  unfold round
  split
  · next h => exact h
  · exact Nat.le_refl _

end Decimal

namespace ColumnType

/-- Where the digits before the point are not counted, there are not too many of them. -/
theorem acceptDecimal_eq (p q : UInt8) (d : Decimal) : acceptDecimal p q d =
    if (d.round q.toNat).atLeast (p.toNat - q.toNat) then .error (.decimalRange p q d)
    else .ok (.decimal ((d.round q.toNat).rescale q.toNat)) := by
  rw [acceptDecimal]
  by_cases h : p.toNat - q.toNat < 29
  · simp only [h, decide_true, Bool.true_and]
  · have hnone := Decimal.powerOfTen?_eq_none (Nat.not_lt.1 h)
    simp only [h, decide_false, Bool.false_and, Decimal.atLeast, hnone, Option.any_none]

/-- What a column of decimals accepts is settled, and has no more digits before the
    point than the type. -/
theorem of_acceptDecimal {p q : UInt8} {d : Decimal} {w : Value}
    (h : acceptDecimal p q d = .ok w) : ∃ e, w = .decimal e ∧ e.Settled q.toNat ∧
      e.atLeast (p.toNat - q.toNat) = false := by
  rw [acceptDecimal_eq] at h
  split at h
  · cases h
  · next hdigits =>
    refine ⟨_, (Except.ok.inj h).symm, Decimal.settled_rescale (d.scale_round_le q.toNat), ?_⟩
    rw [Decimal.atLeast_rescale]
    exact eq_false_of_ne_true hdigits

/-- A decimal that was accepted is accepted again as it is, whatever sign it has. -/
theorem acceptDecimal_again {p q : UInt8} {d e f : Decimal}
    (h : acceptDecimal p q d = .ok (.decimal e)) (hm : f.mantissa = e.mantissa)
    (hs : f.scale = e.scale) : acceptDecimal p q f = .ok (.decimal f) := by
  rcases of_acceptDecimal h with ⟨e', he, hsettled, hdigits⟩
  obtain rfl := Value.decimal.inj he
  have hf : f.Settled q.toNat := by
    simpa only [Decimal.Settled, hm, hs] using hsettled
  have hround : f.round q.toNat = f := by rw [Decimal.round, dif_pos hf.scale_le]
  have hsize : f.atLeast (p.toNat - q.toNat) = e.atLeast (p.toNat - q.toNat) := by
    simp only [Decimal.atLeast_eq, hm, hs]
  rw [acceptDecimal_eq, hround, hsize, hdigits, if_neg Bool.false_ne_true,
    Decimal.rescale_of_settled hf]

end ColumnType

end ColumnStore
