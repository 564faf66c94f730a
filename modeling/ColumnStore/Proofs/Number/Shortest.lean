import ColumnStore.Number.Shortest
import ColumnStore.Proofs.Number.Nearest
import ColumnStore.Proofs.Number.Whole

/-!
# The Shortest Decimal

The shortest decimal of a binary number lies in the interval of the numbers that are
rounded to it. On each grid that is searched only such decimals are taken, so what has
to be shown is that the last grid has one: seventeen digits are so many that half a
step of the grid is less than the way from the number to either midpoint.

## Main definitions

* `Number.units`: A whole number of units of a power of ten.

## Theorems

* `Number.floorLog10_spec`: The power of ten at or below a quotient.
* `Number.Basin.holds_iff`: The interval of a number, compared by multiplying out.
* `Number.Basin.search_holds`: A search ends in the interval if some grid has an answer.
* `Number.shortest_rounds`: The shortest decimal of a number is rounded to it.
-/

namespace ColumnStore

namespace Number

/-- A whole number of units of a power of ten. -/
def units (c : Nat) (t : Int) : ℚ :=
  c * 10 ^ t

/-- The power of ten at or below a positive quotient. -/
theorem floorLog10_spec {num den : Nat} (hnum : 0 < num) (hden : 0 < den) :
    (10 : ℚ) ^ floorLog10 num den ≤ num / den := by
  rw [zpow_le_div_iff Nat.cast_ofNat (by decide) num hden]
  unfold floorLog10
  by_cases hle : den ≤ num
  · -- The quotient is as long as its whole part.
    have hdiv : 0 < num / den := Nat.div_pos hle hden
    have hlow := pow_length_digits_le hdiv
    have hne : 0 < (digits (num / den)).length := List.length_pos_of_ne_nil (digits_ne_nil _)
    have hmul := Nat.mul_le_mul_left den hlow
    have hwhole := Nat.mul_div_le num den
    rw [if_pos hle]
    have hexp : (((digits (num / den)).length : Int) - 1).toNat =
        (digits (num / den)).length - 1 := by
      omega
    have hzero : (-(((digits (num / den)).length : Int) - 1)).toNat = 0 := by omega
    rw [hexp, hzero, Nat.pow_zero, Nat.mul_one]
    omega
  · have hne : 0 < (digits (den / num)).length := List.length_pos_of_ne_nil (digits_ne_nil _)
    rw [if_neg hle]
    by_cases hexact : den ≤ num * 10 ^ ((digits (den / num)).length - 1)
    · -- The quotient is a power of ten.
      have hexp : (1 - ((digits (den / num)).length : Int)).toNat = 0 := by omega
      have hneg : (-(1 - ((digits (den / num)).length : Int))).toNat =
          (digits (den / num)).length - 1 := by omega
      simp only [Nat.pow_eq, hexact, if_true, hexp, hneg, Nat.pow_zero, Nat.mul_one]
    · -- Otherwise it lies between two of them.
      have hhigh := lt_pow_length_digits (den / num)
      have hexp : (-((digits (den / num)).length : Int)).toNat = 0 := by omega
      have hneg : (- -((digits (den / num)).length : Int)).toNat = (digits (den / num)).length := by
        omega
      simp only [Nat.pow_eq, hexact, if_false, hexp, hneg, Nat.pow_zero, Nat.mul_one]
      have hsplit := Nat.div_add_mod den num
      have hrest := Nat.mod_lt den hnum
      have hmul : num * (den / num + 1) ≤ num * 10 ^ (digits (den / num)).length :=
        Nat.mul_le_mul_left num hhigh
      rw [Nat.mul_add, Nat.mul_one] at hmul
      omega

namespace Basin

theorem div_le_units_iff {den : Nat} (hden : 0 < den) (a c : Nat) (t : Int) :
    ((a : ℚ) / den ≤ units c t ↔ a * 10 ^ (-t).toNat ≤ c * (den * 10 ^ t.toNat)) ∧
      (units c t ≤ (a : ℚ) / den ↔ c * (den * 10 ^ t.toNat) ≤ a * 10 ^ (-t).toNat) := by
  have hpos : (0 : ℚ) < den := by exact_mod_cast hden
  have hpow : (0 : ℚ) < ((10 ^ (-t).toNat : Nat) : ℚ) := by exact_mod_cast Nat.pow_pos (by decide)
  have hmul : (c : ℚ) * ((10 ^ t.toNat : Nat) : ℚ) * den = (c * (den * 10 ^ t.toNat) : Nat) := by
    push_cast
    ring
  rw [units, zpow_eq_div Nat.cast_ofNat t, ← mul_div_assoc, div_le_div_iff₀ hpos hpow,
    div_le_div_iff₀ hpow hpos, hmul]
  exact ⟨by exact_mod_cast Iff.rfl, by exact_mod_cast Iff.rfl⟩

/-- A number of units lies between the midpoints, which may belong to the interval. -/
theorem holds_iff {b : Basin} (hden : 0 < b.den) (c : Nat) (t : Int) :
    b.holds c t = true ↔ (b.low : ℚ) / b.den ≤ units c t ∧ units c t ≤ b.high / b.den ∧
      (b.closed = false → (b.low : ℚ) / b.den < units c t ∧ units c t < b.high / b.den) := by
  have hlow := div_le_units_iff hden b.low c t
  have hhigh := div_le_units_iff hden b.high c t
  rw [lt_iff_not_ge, lt_iff_not_ge, hlow.1, hlow.2, hhigh.1, hhigh.2]
  unfold holds
  cases b.closed with
  | true => simp
  | false =>
    simp
    omega

/-- What a grid gives as its answer lies in the interval. -/
theorem holds_of_gridPoint? {b : Basin} {tie : Tie} {t : Int} {c : Nat}
    (h : b.gridPoint? tie t = some c) : b.holds c t = true := by
  unfold gridPoint? at h
  simp only at h
  generalize b.value * Nat.pow 10 (-t).toNat / (b.den * Nat.pow 10 t.toNat) = q at h
  generalize 2 * (b.value * Nat.pow 10 (-t).toNat % (b.den * Nat.pow 10 t.toNat)) = rest at h
  cases hq : b.holds q t <;> cases hnext : b.holds (q + 1) t <;> simp only [hq, hnext] at h
  · cases h
  · cases h
    exact hnext
  · cases h
    exact hq
  · -- Both lie in it, so that it does not matter which one is nearer.
    have hboth : c = q ∨ c = q + 1 := by
      repeat' split at h
      all_goals
        cases h
        simp
    rcases hboth with rfl | rfl
    · exact hq
    · exact hnext

/-- A grid has an answer if half of its step is less than the way from the number to
    either midpoint. -/
theorem exists_gridPoint? {b : Basin} (hden : 0 < b.den) (tie : Tie) {t : Int}
    (hlow : (10 : ℚ) ^ t / 2 < b.value / b.den - b.low / b.den)
    (hhigh : (10 : ℚ) ^ t / 2 < b.high / b.den - b.value / b.den) :
    ∃ c, b.gridPoint? tie t = some c := by
  have hstep : (0 : ℚ) < 10 ^ t := by positivity
  have hunit : 0 < b.den * 10 ^ t.toNat := Nat.mul_pos hden (Nat.pow_pos (by decide))
  have hsplit := Nat.div_add_mod (b.value * 10 ^ (-t).toNat) (b.den * 10 ^ t.toNat)
  have hrest := Nat.mod_lt (b.value * 10 ^ (-t).toNat) hunit
  unfold gridPoint?
  simp only [Nat.pow_eq]
  generalize b.value * 10 ^ (-t).toNat / (b.den * 10 ^ t.toNat) = c at hsplit ⊢
  -- The number lies between the two grid points.
  have hbelow : units c t ≤ b.value / b.den := by
    rw [(div_le_units_iff hden b.value c t).2, Nat.mul_comm c]
    omega
  have habove : (b.value : ℚ) / b.den ≤ units (c + 1) t := by
    rw [(div_le_units_iff hden b.value (c + 1) t).1, Nat.add_mul, Nat.one_mul, Nat.mul_comm c]
    omega
  have hnext : units (c + 1) t = units c t + 10 ^ t := by
    simp only [units]
    push_cast
    ring
  -- The nearer one of them is not further away than either midpoint.
  have hone : b.holds c t = true ∨ b.holds (c + 1) t = true := by
    rw [holds_iff hden, holds_iff hden]
    by_cases hnear : (b.value : ℚ) / b.den - units c t ≤ 10 ^ t / 2
    · left
      refine ⟨by linarith, by linarith, fun _ => ⟨by linarith, by linarith⟩⟩
    · right
      rw [hnext] at habove ⊢
      refine ⟨by linarith, by linarith, fun _ => ⟨by linarith, by linarith⟩⟩
  cases hc : b.holds c t <;> cases hc' : b.holds (c + 1) t
  · rw [hc, hc'] at hone
    simp at hone
  · exact ⟨c + 1, rfl⟩
  · exact ⟨c, rfl⟩
  · simp only
    repeat' split
    all_goals exact ⟨_, rfl⟩

/-- A search ends in the interval if one of the grids that it comes to has an answer. -/
theorem search_holds {b : Basin} {tie : Tie} {n : Nat} {t : Int}
    (h : ∃ k < n, ∃ c, b.gridPoint? tie (t - k) = some c) :
    b.holds (b.search tie n t).1 (b.search tie n t).2 = true := by
  -- Induction on the grids that are still to come.
  induction n generalizing t with
  | zero =>
    rcases h with ⟨k, hk, -⟩
    omega
  | succ n ih =>
    unfold search
    cases hgrid : b.gridPoint? tie t with
    | some c => exact holds_of_gridPoint? hgrid
    | none =>
      refine ih ?_
      rcases h with ⟨k, hk, c, hc⟩
      cases k with
      | zero =>
        rw [Nat.cast_zero, sub_zero, hgrid] at hc
        cases hc
      | succ k =>
        refine ⟨k, by omega, c, ?_⟩
        have hsame : t - ((k + 1 : Nat) : Int) = t - 1 - k := by omega
        rwa [hsame] at hc

/-! ## The interval of a rank -/

section

variable {rank m : Nat} {e : Int}

/-- How far below a number the midpoint is, in units of the last place. -/
def reach (m : Nat) (e : Int) : ℚ :=
  if m = BinaryFormat.double.half ∧ BinaryFormat.double.bottom < e then 1 / 4 else 1 / 2

/-- The interval of a rank consists of the number and the midpoints on both sides. -/
theorem ofRank_spec (hparts : BinaryFormat.double.parts rank = (m, e)) (hm : 0 < m) :
    0 < (ofRank rank).den ∧ ((ofRank rank).low : ℚ) / (ofRank rank).den = (m - reach m e) * 2 ^ e ∧
      ((ofRank rank).value : ℚ) / (ofRank rank).den = m * 2 ^ e ∧
      ((ofRank rank).high : ℚ) / (ofRank rank).den = (m + 1 / 2) * 2 ^ e ∧
      ((ofRank rank).closed = false ↔ m % 2 = 1) := by
  have hscale : ((2 ^ (e - 2).toNat : Nat) : ℚ) / (2 ^ (2 - e).toNat : Nat) = 2 ^ e / 4 := by
    have hpow := zpow_eq_div (b := 2) Nat.cast_ofNat (e - 2)
    have hneg : -(e - 2) = 2 - e := by ring
    rw [hneg] at hpow
    rw [← hpow, zpow_sub₀ two_ne_zero]
    norm_num
  have hden : 0 < 2 ^ (2 - e).toNat := Nat.pow_pos (by decide)
  unfold ofRank
  simp only [hparts, Nat.pow_eq, Nat.cast_mul, mul_div_assoc, hscale]
  refine ⟨hden, ?_, ?_, ?_, ?_⟩
  · unfold reach
    by_cases hnarrow : m = BinaryFormat.double.half ∧ BinaryFormat.double.bottom < e
    · have hone : 1 ≤ 4 * m := by omega
      simp only [hnarrow, decide_true, Bool.and_self, if_true, and_self]
      rw [hnarrow.1] at hone
      rw [Nat.cast_sub hone]
      push_cast
      ring
    · have htwo : 2 ≤ 4 * m := by omega
      have hbool : (decide (m = BinaryFormat.double.half) &&
          decide (BinaryFormat.double.bottom < e)) = false := by
        simpa using hnarrow
      simp only [hbool, Bool.false_eq_true, if_false, hnarrow]
      rw [Nat.cast_sub htwo]
      push_cast
      ring
  · push_cast
    ring
  · push_cast
    ring
  · simp

/-- What lies in the interval of a rank is rounded to it. -/
theorem rounds_of_holds (hparts : BinaryFormat.double.parts rank = (m, e)) (hm : 0 < m) {c : Nat}
    {t : Int} (h : (ofRank rank).holds c t = true) :
    BinaryFormat.double.Rounds m e (units c t) := by
  rcases ofRank_spec hparts hm with ⟨hden, hlow, -, hhigh, hclosed⟩
  have hscale : (0 : ℚ) < 2 ^ e := by positivity
  rw [holds_iff hden, hlow, hhigh, hclosed] at h
  rcases h with ⟨h1, h2, hstrict⟩
  have hhalf : ((m : ℚ) - 1 / 2) * 2 ^ e ≤ (m - reach m e) * 2 ^ e := by
    refine mul_le_mul_of_nonneg_right ?_ hscale.le
    unfold reach
    split <;> linarith
  refine ⟨by linarith, h2, ?_, ?_⟩
  · intro hodd
    have hstrict' := hstrict hodd
    exact ⟨by linarith, hstrict'.2⟩
  · intro hnarrow hlt
    rwa [reach, if_pos ⟨hnarrow, hlt⟩] at h1

/-- Seventeen digits are enough: half of the step of their grid is less than the way to
    either midpoint. -/
theorem exists_gridPoint?_ofRank (hparts : BinaryFormat.double.parts rank = (m, e)) (hm : 0 < m)
    (hless : m < 2 * BinaryFormat.double.half) (tie : Tie) :
    ∃ c, (ofRank rank).gridPoint? tie
      (floorLog10 (ofRank rank).value (ofRank rank).den - 16) = some c := by
  rcases ofRank_spec hparts hm with ⟨hden, hlow, hvalue, hhigh, -⟩
  have hscale : (0 : ℚ) < 2 ^ e := by positivity
  have hm' : (0 : ℚ) < m := by exact_mod_cast hm
  have hpos : 0 < (ofRank rank).value := by
    by_contra hzero
    have hvalue0 : (ofRank rank).value = 0 := by omega
    rw [hvalue0, Nat.cast_zero, zero_div] at hvalue
    have hmul := mul_pos hm' hscale
    linarith
  have hlog := floorLog10_spec hpos hden
  generalize floorLog10 (ofRank rank).value (ofRank rank).den = l at hlog ⊢
  rw [hvalue] at hlog
  have hstep : (10 : ℚ) ^ (l - 16) = 10 ^ l / 10 ^ 16 := by
    rw [zpow_sub₀ (by norm_num)]
    norm_num
  have hhalf : BinaryFormat.double.half = 2 ^ 52 := rfl
  have hbound : (m : ℚ) ≤ 2 ^ 53 := by
    have hle : m ≤ 2 ^ 53 := by omega
    exact_mod_cast hle
  have hmul : (m : ℚ) * 2 ^ e ≤ 2 ^ 53 * 2 ^ e := mul_le_mul_of_nonneg_right hbound hscale.le
  refine exists_gridPoint? hden tie ?_ ?_
  · rw [hvalue, hlow, hstep]
    unfold reach
    split
    · next hnarrow =>
      -- At a power of two the number is so much smaller than its step.
      have hm52 : (m : ℚ) = 2 ^ 52 := by
        rw [hnarrow.1, hhalf]
        norm_num
      rw [hm52] at hlog ⊢
      linarith
    · linarith
  · rw [hvalue, hhigh, hstep]
    linarith

end

end Basin

/-- Moving zeros from the end of a number to its unit does not change it. -/
theorem units_dropZeros (n c : Nat) (t : Int) :
    units (dropZeros n c t).1 (dropZeros n c t).2 = units c t := by
  induction n generalizing c t with
  | zero => rfl
  | succ n ih =>
    unfold dropZeros
    by_cases hc : c % 10 = 0
    · rw [if_pos hc, ih]
      have hten : c = c / 10 * 10 := by omega
      have hcast : (c : ℚ) = (c / 10 : Nat) * 10 := by exact_mod_cast hten
      rw [units, units, hcast, zpow_add_one₀ (by norm_num)]
      ring
    · rw [if_neg hc]

/-- The shortest decimal of a number is rounded to it. -/
theorem shortest_rounds {rank : Nat} (hrank : 0 < rank) (tie : Tie) :
    BinaryFormat.double.Rounds (BinaryFormat.double.parts rank).1 (BinaryFormat.double.parts rank).2
      (units (shortest tie rank).1 (shortest tie rank).2) := by
  have hm := BinaryFormat.double.parts_pos hrank
  have hless := (BinaryFormat.double.parts_spec rank).2.2.1
  have hparts : BinaryFormat.double.parts rank =
      ((BinaryFormat.double.parts rank).1, (BinaryFormat.double.parts rank).2) := rfl
  have hgrid := Basin.exists_gridPoint?_ofRank hparts hm hless tie
  have hholds := Basin.search_holds (n := 17) ⟨16, by decide, hgrid⟩
  have hunits : units (shortest tie rank).1 (shortest tie rank).2 =
      units ((Basin.ofRank rank).search tie 17
        (floorLog10 (Basin.ofRank rank).value (Basin.ofRank rank).den)).1
      ((Basin.ofRank rank).search tie 17
        (floorLog10 (Basin.ofRank rank).value (Basin.ofRank rank).den)).2 :=
    units_dropZeros 17 _ _
  rw [hunits]
  exact Basin.rounds_of_holds hparts hm hholds

end Number

end ColumnStore
