import ColumnStore.Number.Binary64
import Mathlib.Algebra.Order.Field.Power
import Mathlib.Data.Rat.Cast.Order
import Mathlib.Tactic.FieldSimp
import Mathlib.Tactic.Linarith
import Mathlib.Tactic.NormNum
import Mathlib.Tactic.Positivity
import Mathlib.Tactic.Ring

/-!
# The Nearest Binary Number

Around every binary number lies an interval of numbers that are rounded to it. It ends
at the midpoints to the two neighbours, which belong to it if the significand is even.
Below a power of two the neighbour is nearer by half, so that the interval is narrower
on that side; and the exponent of what is rounded is then one less than that of the
result, which is where the argument needs the rank: the significand after the largest
one is the smallest one of the next exponent.

## Main definitions

* `BinaryFormat.Rounds`: The interval of a significand and an exponent.

## Theorems

* `Number.halfEven_eq`: What a quotient near to a whole number is rounded to.
* `BinaryFormat.floorLog2_spec`: The power of two at or below a quotient.
* `BinaryFormat.parts_spec`: What a rank is made of.
* `BinaryFormat.nearestRank_eq`: What lies in the interval of a rank is rounded to it.
-/

namespace ColumnStore

/-- A power with an integer for its exponent as a quotient of whole numbers. -/
theorem zpow_eq_div {b : Nat} {x : ℚ} (hx : (b : ℚ) = x) (t : Int) :
    x ^ t = (b ^ t.toNat : Nat) / (b ^ (-t).toNat : Nat) := by
  rw [← hx]
  by_cases ht : 0 ≤ t
  · have hneg : (-t).toNat = 0 := by omega
    have hself : ((t.toNat : Nat) : Int) = t := by omega
    rw [hneg, pow_zero, Nat.cast_one, div_one, Nat.cast_pow, ← zpow_natCast, hself]
  · have hzero : t.toNat = 0 := by omega
    have hself : (((-t).toNat : Nat) : Int) = -t := by omega
    rw [hzero, pow_zero, Nat.cast_one, Nat.cast_pow, ← zpow_natCast, hself, zpow_neg, one_div,
      inv_inv]

/-- A power is compared with a quotient by multiplying out. -/
theorem zpow_le_div_iff {b : Nat} {x : ℚ} (hx : (b : ℚ) = x) (hb : 0 < b) (num : Nat)
    {den : Nat} (hden : 0 < den) (t : Int) :
    x ^ t ≤ num / den ↔ den * b ^ t.toNat ≤ num * b ^ (-t).toNat := by
  have hpow : (0 : ℚ) < ((b ^ (-t).toNat : Nat) : ℚ) := by exact_mod_cast Nat.pow_pos hb
  have hpos : (0 : ℚ) < den := by exact_mod_cast hden
  rw [zpow_eq_div hx, div_le_div_iff₀ hpow hpos, Nat.mul_comm den]
  exact_mod_cast Iff.rfl

namespace Number

/-- A quotient that is a half away from a whole number at most is rounded to it, if it
    is nearer than that or the number is even. -/
theorem halfEven_eq {num den q : Nat} (hden : 0 < den) (hlow : (q : ℚ) - 1 / 2 ≤ num / den)
    (hhigh : (num : ℚ) / den ≤ q + 1 / 2)
    (htie : q % 2 = 1 → (q : ℚ) - 1 / 2 < num / den ∧ (num : ℚ) / den < q + 1 / 2) :
    halfEven num den = q := by
  have hpos : (0 : ℚ) < den := by exact_mod_cast hden
  have hlow' : 2 * (q * den) ≤ 2 * num + den := by
    rw [le_div_iff₀ hpos] at hlow
    have h : (2 * (q * den) : ℚ) ≤ 2 * num + den := by linarith
    exact_mod_cast h
  have hhigh' : 2 * num ≤ 2 * (q * den) + den := by
    rw [div_le_iff₀ hpos] at hhigh
    have h : (2 * num : ℚ) ≤ 2 * (q * den) + den := by linarith
    exact_mod_cast h
  have htie' : q % 2 = 1 → 2 * (q * den) < 2 * num + den ∧ 2 * num < 2 * (q * den) + den := by
    intro hq
    rcases htie hq with ⟨h1, h2⟩
    rw [lt_div_iff₀ hpos] at h1
    rw [div_lt_iff₀ hpos] at h2
    have h1' : (2 * (q * den) : ℚ) < 2 * num + den := by linarith
    have h2' : (2 * num : ℚ) < 2 * (q * den) + den := by linarith
    exact ⟨by exact_mod_cast h1', by exact_mod_cast h2'⟩
  have hsplit := Nat.div_add_mod num den
  have hrest := Nat.mod_lt num hden
  -- The whole part of the quotient is the number or the one before it.
  have hle : num / den ≤ q := by
    by_contra hgt
    have hmul : (q + 1) * den ≤ den * (num / den) := by
      rw [Nat.mul_comm den]
      exact Nat.mul_le_mul_right den (by omega)
    rw [Nat.add_mul, Nat.one_mul] at hmul
    omega
  have hge : q ≤ num / den + 1 := by
    by_contra hlt
    have hmul : den * (num / den) + 2 * den ≤ q * den := by
      rw [Nat.mul_comm den, ← Nat.add_mul]
      exact Nat.mul_le_mul_right den (by omega)
    omega
  unfold halfEven
  rcases Nat.eq_or_lt_of_le hle with heq | hlt
  · have hmul : q * den = den * (num / den) := by rw [heq, Nat.mul_comm]
    simp only [heq] at *
    split
    · rfl
    split
    · omega
    split
    · rfl
    · omega
  · have hq : q = num / den + 1 := by omega
    have hmul : q * den = den * (num / den) + den := by rw [hq, Nat.add_mul, Nat.mul_comm]; omega
    simp only
    split
    · omega
    split
    · omega
    split
    · omega
    · omega

end Number

namespace BinaryFormat

/-- The power of two at or below a positive quotient. -/
theorem floorLog2_spec {num den : Nat} (hnum : 0 < num) (hden : 0 < den) :
    (2 : ℚ) ^ floorLog2 num den ≤ num / den ∧ (num : ℚ) / den < 2 ^ (floorLog2 num den + 1) := by
  have hpos : (0 : ℚ) < den := by exact_mod_cast hden
  have hnumlow : (2 : ℚ) ^ (num.log2 : Int) ≤ num := by
    rw [zpow_natCast]
    exact_mod_cast Nat.log2_self_le (by omega)
  have hnumhigh : (num : ℚ) < 2 ^ ((num.log2 : Int) + 1) := by
    have h : num < 2 ^ (num.log2 + 1) := Nat.lt_log2_self
    exact_mod_cast h
  have hdenlow : (2 : ℚ) ^ (den.log2 : Int) ≤ den := by
    rw [zpow_natCast]
    exact_mod_cast Nat.log2_self_le (by omega)
  have hdenhigh : (den : ℚ) < 2 ^ ((den.log2 : Int) + 1) := by
    have h : den < 2 ^ (den.log2 + 1) := Nat.lt_log2_self
    exact_mod_cast h
  -- The difference of the two exponents is that of the quotient, or one too large. The
  -- function tries it first and takes the other one if it is refused.
  have hlow : (2 : ℚ) ^ ((num.log2 : Int) - den.log2 - 1) ≤ num / den := by
    rw [le_div_iff₀ hpos]
    have hsplit : (2 : ℚ) ^ ((num.log2 : Int) - den.log2 - 1) * 2 ^ ((den.log2 : Int) + 1) =
        2 ^ (num.log2 : Int) := by
      rw [← zpow_add₀ two_ne_zero]
      congr 1
      ring
    have hscale : (0 : ℚ) < 2 ^ ((num.log2 : Int) - den.log2 - 1) := by positivity
    have hmul := mul_le_mul_of_nonneg_left hdenhigh.le hscale.le
    linarith
  have hhigh : (num : ℚ) / den < 2 ^ ((num.log2 : Int) - den.log2 + 1) := by
    rw [div_lt_iff₀ hpos]
    have hsplit : (2 : ℚ) ^ ((num.log2 : Int) - den.log2 + 1) * 2 ^ (den.log2 : Int) =
        2 ^ ((num.log2 : Int) + 1) := by
      rw [← zpow_add₀ two_ne_zero]
      congr 1
      ring
    have hscale : (0 : ℚ) < 2 ^ ((num.log2 : Int) - den.log2 + 1) := by positivity
    have hmul := mul_le_mul_of_nonneg_left hdenlow hscale.le
    linarith
  unfold floorLog2
  generalize (num.log2 : Int) - den.log2 = k at hlow hhigh ⊢
  have hiff : (if 0 ≤ k then den * Nat.pow 2 k.toNat ≤ num
      else den ≤ num * Nat.pow 2 (-k).toNat) ↔ (2 : ℚ) ^ k ≤ num / den := by
    rw [zpow_le_div_iff Nat.cast_ofNat two_pos num hden k]
    by_cases hk : 0 ≤ k
    · have hneg : (-k).toNat = 0 := by omega
      simp only [hk, if_true, hneg, Nat.pow_zero, Nat.mul_one, Nat.pow_eq]
    · have hzero : k.toNat = 0 := by omega
      simp only [hk, if_false, hzero, Nat.pow_zero, Nat.mul_one, Nat.pow_eq]
  simp only [hiff]
  by_cases hle : (2 : ℚ) ^ k ≤ num / den
  · rw [if_pos hle]
    exact ⟨hle, hhigh⟩
  · rw [if_neg hle, sub_add_cancel]
    exact ⟨hlow, not_le.1 hle⟩

/-- What a rank is made of: a significand of the format, and as many ranks below as
    there are significands for each lower exponent. -/
theorem parts_spec (f : BinaryFormat) (rank : Nat) :
    f.bottom ≤ (f.parts rank).2 ∧
      ((f.parts rank).2 - f.bottom).toNat * f.half + (f.parts rank).1 = rank ∧
      (f.parts rank).1 < 2 * f.half ∧
      (f.bottom < (f.parts rank).2 → f.half ≤ (f.parts rank).1) := by
  have hhalf : 0 < f.half := Nat.pow_pos (by decide)
  have hsplit := Nat.div_add_mod rank f.half
  have hrest := Nat.mod_lt rank hhalf
  unfold parts
  split
  · next h =>
    have hlt : rank < f.half := by
      rw [Nat.div_eq_zero_iff] at h
      omega
    simp
    omega
  · next b h =>
    have hmul : f.half * b.succ = b * f.half + f.half := by
      rw [Nat.mul_comm, Nat.succ_mul]
    rw [h, hmul] at hsplit
    have hb : (f.bottom + (b : Int) - f.bottom).toNat = b := by omega
    simp only [hb]
    omega

/-- A rank above zero has a significand above zero. -/
theorem parts_pos (f : BinaryFormat) {rank : Nat} (hrank : 0 < rank) : 0 < (f.parts rank).1 := by
  rcases f.parts_spec rank with ⟨hbottom, hsum, -, hhalf⟩
  have hpos : 0 < f.half := Nat.pow_pos (by decide)
  by_cases hlt : f.bottom < (f.parts rank).2
  · have hle := hhalf hlt
    omega
  · have hzero : ((f.parts rank).2 - f.bottom).toNat = 0 := by omega
    rw [hzero] at hsum
    omega

/-- The interval of the numbers that are rounded to a significand with an exponent. -/
structure Rounds (f : BinaryFormat) (m : Nat) (e : Int) (v : ℚ) : Prop where
  /-- The midpoint to the number below. -/
  low : (m - 1 / 2 : ℚ) * 2 ^ e ≤ v
  /-- The midpoint to the number above. -/
  high : v ≤ (m + 1 / 2 : ℚ) * 2 ^ e
  /-- The midpoints belong to the even one of two neighbours. -/
  odd : m % 2 = 1 → (m - 1 / 2 : ℚ) * 2 ^ e < v ∧ v < (m + 1 / 2 : ℚ) * 2 ^ e
  /-- Below a power of two the neighbour has a smaller exponent. -/
  narrow : m = f.half → f.bottom < e → (m - 1 / 4 : ℚ) * 2 ^ e ≤ v

theorem half_eq_zpow (f : BinaryFormat) :
    (f.half : ℚ) = 2 ^ ((f.precision - 1 : Nat) : Int) := by
  have h : f.half = 2 ^ (f.precision - 1) := rfl
  rw [zpow_natCast, h, Nat.cast_pow, Nat.cast_ofNat]

/-- What lies in an interval has the exponent of its number, or the one below it if the
    number is the least one of its exponent. -/
theorem Rounds.exponent {f : BinaryFormat} (hf : 2 ≤ f.precision) {m : Nat} {e : Int} {v : ℚ}
    (h : f.Rounds m e v) (hbottom : f.bottom ≤ e) (hless : m < 2 * f.half)
    (hhalf : f.bottom < e → f.half ≤ m) {l : Int} (hlow : 2 ^ l ≤ v) (hhigh : v < 2 ^ (l + 1)) :
    max f.bottom (l - (f.precision - 1 : Nat)) = e ∨
      max f.bottom (l - (f.precision - 1 : Nat)) = e - 1 ∧ f.bottom < e ∧ m = f.half ∧
        v < f.half * 2 ^ e := by
  have hscale : (0 : ℚ) < 2 ^ e := by positivity
  have hpow := f.half_eq_zpow
  have hp : 0 < f.precision - 1 := by omega
  generalize f.precision - 1 = p at hpow hp ⊢
  have hhalftwo : (2 : ℚ) ≤ f.half := by
    rw [hpow, zpow_natCast]
    exact_mod_cast Nat.pow_le_pow_right (n := 2) (by decide) hp
  have hjoin (k : Int) : (2 : ℚ) ^ (p + k) = f.half * 2 ^ k := by
    rw [hpow, zpow_add₀ two_ne_zero]
  -- Nothing in the interval reaches the next exponent.
  have hupper : l < p + (e + 1) := by
    have hm : (m : ℚ) + 1 ≤ 2 * f.half := by exact_mod_cast hless
    have hmul : ((m : ℚ) + 1 / 2) * 2 ^ e < 2 * f.half * 2 ^ e :=
      mul_lt_mul_of_pos_right (by linarith) hscale
    have hnext : (2 : ℚ) ^ (e + 1) = 2 ^ e * 2 := zpow_add_one₀ two_ne_zero e
    have hlt : (2 : ℚ) ^ l < 2 ^ (p + (e + 1)) := by
      rw [hjoin, hnext]
      have hv := h.high
      linarith
    exact (zpow_lt_zpow_iff_right₀ one_lt_two).1 hlt
  by_cases hsame : f.bottom < e ∧ l < p + e
  · right
    rcases hsame with ⟨hlt, hl⟩
    have hv : v < f.half * 2 ^ e := by
      rw [← hjoin]
      exact lt_of_lt_of_le hhigh (zpow_le_zpow_right₀ one_le_two (by omega))
    have hm : m = f.half := by
      by_contra hne
      have hge : f.half + 1 ≤ m := by
        have hle := hhalf hlt
        omega
      have hge' : (f.half : ℚ) + 1 ≤ m := by exact_mod_cast hge
      have hmul : (f.half : ℚ) * 2 ^ e ≤ ((m : ℚ) - 1 / 2) * 2 ^ e :=
        mul_le_mul_of_nonneg_right (by linarith) hscale.le
      have hlow' := h.low
      linarith
    refine ⟨?_, hlt, hm, hv⟩
    have hlower : (p : Int) + (e - 1) < l + 1 := by
      have hnarrow := h.narrow hm hlt
      have hback : (2 : ℚ) ^ e = 2 ^ (e - 1) * 2 := by
        rw [← zpow_add_one₀ two_ne_zero, sub_add_cancel]
      have hback' : (0 : ℚ) < 2 ^ (e - 1) := by positivity
      have hmul : (f.half : ℚ) * 2 ^ (e - 1) ≤ ((f.half : ℚ) * 2 - 1 / 2) * 2 ^ (e - 1) :=
        mul_le_mul_of_nonneg_right (by linarith) hback'.le
      rw [hm, hback] at hnarrow
      have hlt' : (2 : ℚ) ^ (p + (e - 1)) < 2 ^ (l + 1) := by
        rw [hjoin]
        linarith
      exact (zpow_lt_zpow_iff_right₀ one_lt_two).1 hlt'
    omega
  · left
    omega

/-- A quotient is divided by a power of two by multiplying one of its parts. -/
theorem scaled_eq (num den : Nat) (e : Int) :
    ((num * Nat.pow 2 (-e).toNat : Nat) : ℚ) / (den * Nat.pow 2 e.toNat : Nat) =
      num / den / 2 ^ e := by
  rw [zpow_eq_div Nat.cast_ofNat e, Nat.pow_eq, Nat.pow_eq, Nat.cast_mul, Nat.cast_mul,
    div_div_div_eq]

/-- What lies in the interval of a rank is rounded to it. -/
theorem nearestRank_eq {f : BinaryFormat} (hf : 2 ≤ f.precision) {num den rank : Nat}
    (hnum : 0 < num) (hden : 0 < den)
    (h : f.Rounds (f.parts rank).1 (f.parts rank).2 (num / den)) :
    f.nearestRank num den = rank := by
  rcases f.parts_spec rank with ⟨hbottom, hsum, hless, hhalf⟩
  generalize (f.parts rank).1 = m at *
  generalize (f.parts rank).2 = e at *
  have hlog := floorLog2_spec hnum hden
  have hdenpos (k : Int) : 0 < den * Nat.pow 2 k.toNat := Nat.mul_pos hden (Nat.pow_pos (by decide))
  have hscale (k : Int) : (0 : ℚ) < 2 ^ k := by positivity
  unfold nearestRank
  rw [if_neg (by omega)]
  rcases h.exponent hf hbottom hless hhalf hlog.1 hlog.2 with he | ⟨he, hlt, hm, hv⟩
  · -- In units of the last place of the number, the quotient is rounded to its significand.
    have hq : Number.halfEven (num * Nat.pow 2 (-e).toNat) (den * Nat.pow 2 e.toNat) = m := by
      refine Number.halfEven_eq (hdenpos e) ?_ ?_ ?_
      · rw [scaled_eq, le_div_iff₀ (hscale e)]
        exact h.low
      · rw [scaled_eq, div_le_iff₀ (hscale e)]
        exact h.high
      · rw [scaled_eq, lt_div_iff₀ (hscale e), div_lt_iff₀ (hscale e)]
        exact h.odd
    simp only [he, hq]
    exact hsum
  · -- In units of half of it, it is rounded to the significand after the largest one.
    have hback : (2 : ℚ) ^ e = 2 ^ (e - 1) * 2 := by
      rw [← zpow_add_one₀ two_ne_zero, sub_add_cancel]
    have hq : Number.halfEven (num * Nat.pow 2 (-(e - 1)).toNat) (den * Nat.pow 2 (e - 1).toNat) =
        2 * f.half := by
      have hnarrow := h.narrow hm hlt
      rw [hm, hback] at hnarrow
      rw [hback] at hv
      have hpos := hscale (e - 1)
      refine Number.halfEven_eq (hdenpos (e - 1)) ?_ ?_ ?_
      · rw [scaled_eq, le_div_iff₀ hpos, Nat.cast_mul, Nat.cast_ofNat]
        linarith
      · rw [scaled_eq, div_le_iff₀ hpos, Nat.cast_mul, Nat.cast_ofNat]
        linarith
      · intro hodd
        omega
    simp only [he, hq]
    have hstep : (e - f.bottom).toNat = (e - 1 - f.bottom).toNat + 1 := by omega
    rw [hstep, hm, Nat.add_mul] at hsum
    omega

end BinaryFormat

end ColumnStore
