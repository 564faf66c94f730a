import ColumnStore.Number.Real
import ColumnStore.Proofs.Number.Shortest

/-!
# Reading Binary Numbers Back

Every binary number is read back from its own text: the text of a finite one says the
shortest decimal, which is rounded to the number, and the other ones have names.

## Theorems

* `Reading.decimal?_positional`: What the text of a decimal says.
* `Reading.rank_eq`: What is rounded to a number is read as the number.
* `Binary64.read?_sql`: A number is read back from its text.
-/

namespace ColumnStore

namespace Reading

theorem decimal?_digits (negative : Bool) {ds : List Char} (hne : ds ≠ [])
    (hds : ∀ c ∈ ds, c.isDigit = true) :
    decimal? negative ds = some (.decimal negative (Number.ofDigits ds) 0) := by
  have hspan := Text.span_append (r := []) hds (by simp)
  rw [List.append_nil] at hspan
  unfold decimal?
  rw [hspan.1, hspan.2]
  cases ds with
  | nil => exact absurd rfl hne
  | cons d ds => simp [exponent?]

/-- Digits with a point among them are read as the number that they denote without it,
    in units of the last place. -/
theorem decimal?_point (negative : Bool) {ds places : List Char} (hne : ds ≠ [])
    (hds : ∀ c ∈ ds, c.isDigit = true) (hplaces : ∀ c ∈ places, c.isDigit = true) :
    decimal? negative (ds ++ '.' :: places) =
      some (.decimal negative (Number.ofDigits (ds ++ places)) (-(places.length : Int))) := by
  have hspan := Text.span_append (r := '.' :: places) hds (by simp)
  have hrest := Text.span_append (r := []) hplaces (by simp)
  rw [List.append_nil] at hrest
  unfold decimal?
  rw [hspan.1, hspan.2]
  simp only [hrest.1, hrest.2]
  cases ds with
  | nil => exact absurd rfl hne
  | cons d ds => simp [exponent?]

/-- The text of a decimal starts with a digit, and says the decimal. -/
theorem decimal?_positional (negative : Bool) (c : Nat) (t : Int) :
    (∃ d r, Number.positional c t = d :: r ∧ d.isDigit = true) ∧
      ∃ c' e, decimal? negative (Number.positional c t) = some (.decimal negative c' e) ∧
        Number.units c' e = Number.units c t := by
  have hdigits : ∀ d ∈ Number.digits c, d.isDigit = true :=
    fun d hd => Number.isDigit_of_mem_digits hd
  have hzeros (n : Nat) : ∀ d ∈ List.replicate n '0', d.isDigit = true := by
    intro d hd
    rw [List.eq_of_mem_replicate hd]
    rfl
  unfold Number.positional
  by_cases ht : 0 ≤ t
  · simp only [ht, if_true]
    have hall : ∀ d ∈ Number.digits c ++ List.replicate t.toNat '0', d.isDigit = true := by
      intro d hd
      rcases List.mem_append.1 hd with hd | hd
      · exact hdigits d hd
      · exact hzeros _ d hd
    refine ⟨?_, _, _, decimal?_digits negative (by simp [Number.digits_ne_nil]) hall, ?_⟩
    · cases hs : Number.digits c with
      | nil => exact absurd hs (Number.digits_ne_nil c)
      | cons d ds => exact ⟨d, _, rfl, hdigits d (hs ▸ List.mem_cons_self)⟩
    · have hself : ((t.toNat : Nat) : Int) = t := by omega
      rw [Number.ofDigits_append, Number.ofDigits_digits, Number.ofDigits_replicate,
        List.length_replicate, Nat.add_zero, Number.units, Number.units, zpow_zero, mul_one,
        ← hself, zpow_natCast]
      push_cast
      rfl
  · simp only [ht, if_false]
    generalize hn : (-t).toNat = n
    -- The zeros in front make room for the point.
    have hall : ∀ d ∈ List.replicate (n + 1 - (Number.digits c).length) '0' ++ Number.digits c,
        d.isDigit = true := by
      intro d hd
      rcases List.mem_append.1 hd with hd | hd
      · exact hzeros _ d hd
      · exact hdigits d hd
    have hlength : n + 1 ≤
        (List.replicate (n + 1 - (Number.digits c).length) '0' ++ Number.digits c).length := by
      rw [List.length_append, List.length_replicate]
      omega
    have hvalue : Number.ofDigits
        (List.replicate (n + 1 - (Number.digits c).length) '0' ++ Number.digits c) = c := by
      rw [Number.ofDigits_append, Number.ofDigits_replicate, Number.ofDigits_digits, Nat.zero_mul,
        Nat.zero_add]
    generalize List.replicate (n + 1 - (Number.digits c).length) '0' ++ Number.digits c = ds
      at hall hlength hvalue
    have htake : ∀ d ∈ ds.take (ds.length - n), d.isDigit = true :=
      fun d hd => hall d (List.mem_of_mem_take hd)
    have hdrop : ∀ d ∈ ds.drop (ds.length - n), d.isDigit = true :=
      fun d hd => hall d (List.mem_of_mem_drop hd)
    have hne : ds.take (ds.length - n) ≠ [] := by
      intro hnil
      have hzero := congrArg List.length hnil
      rw [List.length_take, List.length_nil] at hzero
      omega
    refine ⟨?_, _, _, decimal?_point negative hne htake hdrop, ?_⟩
    · cases hs : ds.take (ds.length - n) with
      | nil => exact absurd hs hne
      | cons d r => exact ⟨d, _, rfl, htake d (hs ▸ List.mem_cons_self)⟩
    · have hexp : (-((ds.drop (ds.length - n)).length : Int)) = t := by
        rw [List.length_drop]
        omega
      rw [List.take_append_drop, hvalue, hexp]

/-- A number without a sign starts like no name. -/
theorem unsigned?_of_isDigit (negative : Bool) {d : Char} (hd : d.isDigit = true)
    (r : List Char) : unsigned? negative (d :: r) = decimal? negative (d :: r) := by
  have hother {c : Char} (hc : c.isDigit = false) (s : List Char) :
      (d :: r).map Char.toLower ≠ c :: s := by
    intro h
    have hlower : d.toLower = d := by
      have hall : ∀ n < 58, 48 ≤ n → (Char.ofNat n).toLower = Char.ofNat n := by decide
      rcases Number.toNat_of_isDigit hd with ⟨hge, hle⟩
      have hself := hall d.toNat (by omega) hge
      rwa [Char.ofNat_toNat] at hself
    rw [List.map_cons, hlower] at h
    rw [(List.cons.inj h).1, hc] at hd
    exact absurd hd (by decide)
  unfold unsigned?
  have hnan : (d :: r).map Char.toLower ≠ "nan".toList := hother (by decide) _
  have hinf : (d :: r).map Char.toLower ≠ "inf".toList := hother (by decide) _
  have hinfinity : (d :: r).map Char.toLower ≠ "infinity".toList := hother (by decide) _
  simp only [hnan, hinf, hinfinity, decide_false, Bool.or_self, Bool.false_eq_true, if_false]

/-- A digit is no sign. -/
theorem read?_of_isDigit {d : Char} (hd : d.isDigit = true) (r : List Char) :
    read? (d :: r) = unsigned? false (d :: r) := by
  unfold read?
  split
  · next h =>
    rw [(List.cons.inj h).1] at hd
    exact absurd hd (by decide)
  · next h =>
    rw [(List.cons.inj h).1] at hd
    exact absurd hd (by decide)
  · rfl

theorem place_spec {c : Nat} (hc : 0 < c) (e : Int) :
    (10 : ℚ) ^ (((Number.digits c).length : Int) + e - 1) ≤ Number.units c e ∧
      Number.units c e < 10 ^ (((Number.digits c).length : Int) + e) := by
  have hten : (0 : ℚ) < 10 ^ e := by positivity
  have hne : 0 < (Number.digits c).length := List.length_pos_of_ne_nil (Number.digits_ne_nil c)
  have hlow := Number.pow_length_digits_le hc
  have hhigh := Number.lt_pow_length_digits c
  generalize (Number.digits c).length = l at *
  have hlow' : (10 : ℚ) ^ (l - 1) ≤ c := by exact_mod_cast hlow
  have hhigh' : (c : ℚ) < 10 ^ l := by exact_mod_cast hhigh
  have hexp : (l : Int) + e - 1 = ((l - 1 : Nat) : Int) + e := by omega
  rw [hexp, zpow_add₀ (by norm_num), zpow_add₀ (by norm_num), zpow_natCast, zpow_natCast]
  exact ⟨mul_le_mul_of_nonneg_right hlow' hten.le, mul_lt_mul_of_pos_right hhigh' hten⟩

/-- What is rounded to a number of the format above zero is neither too small nor too
    large for it. -/
theorem bounds_of_rounds {rank : Nat} {v : ℚ} (hrank : 0 < rank)
    (hlimit : rank < BinaryFormat.double.limit)
    (h : BinaryFormat.double.Rounds (BinaryFormat.double.parts rank).1
      (BinaryFormat.double.parts rank).2 v) :
    (2 : ℚ) ^ (-1074 : Int) / 2 ≤ v ∧ v ≤ 2 ^ 53 * 2 ^ (971 : Int) := by
  have hm := BinaryFormat.double.parts_pos hrank
  rcases BinaryFormat.double.parts_spec rank with ⟨hbottom, hsum, hless, hhalf⟩
  generalize (BinaryFormat.double.parts rank).1 = m at *
  generalize (BinaryFormat.double.parts rank).2 = p at *
  have hhalf52 : BinaryFormat.double.half = 2 ^ 52 := rfl
  have hlimit52 : BinaryFormat.double.limit = 2047 * 2 ^ 52 := rfl
  have hbottom' : BinaryFormat.double.bottom = -1074 := rfl
  rw [hhalf52] at hsum hless hhalf
  rw [hlimit52] at hlimit
  rw [hbottom'] at hbottom hhalf hsum
  have hp : p ≤ 971 := by omega
  have hscale : (0 : ℚ) < 2 ^ p := by positivity
  have hm1 : (1 : ℚ) ≤ m := by exact_mod_cast hm
  have hm53 : (m : ℚ) + 1 ≤ 2 ^ 53 := by
    have hle : m + 1 ≤ 2 ^ 53 := by omega
    exact_mod_cast hle
  constructor
  · have hpow : (2 : ℚ) ^ (-1074 : Int) ≤ 2 ^ p := zpow_le_zpow_right₀ one_le_two hbottom
    have hmul : 1 / 2 * 2 ^ p ≤ ((m : ℚ) - 1 / 2) * 2 ^ p :=
      mul_le_mul_of_nonneg_right (by linarith) hscale.le
    have hle := h.low
    linarith
  · have hpow : (2 : ℚ) ^ p ≤ 2 ^ (971 : Int) := zpow_le_zpow_right₀ one_le_two hp
    have hmul : ((m : ℚ) + 1 / 2) * 2 ^ p ≤ 2 ^ 53 * 2 ^ (971 : Int) :=
      mul_le_mul (by linarith) hpow hscale.le (by positivity)
    exact h.high.trans hmul

/-- What is rounded to a number is read as the number. None of it is so large or so
    small that it is not computed. -/
theorem rank_eq {rank c : Nat} {e : Int} (hrank : 0 < rank)
    (hlimit : rank < BinaryFormat.double.limit)
    (h : BinaryFormat.double.Rounds (BinaryFormat.double.parts rank).1
      (BinaryFormat.double.parts rank).2 (Number.units c e)) :
    Reading.rank .double c e = rank := by
  rcases bounds_of_rounds hrank hlimit h with ⟨hlow, hhigh⟩
  have hc : 0 < c := by
    by_contra hzero
    have hc0 : c = 0 := by omega
    rw [hc0, Number.units, Nat.cast_zero, zero_mul] at hlow
    have hpos : (0 : ℚ) < 2 ^ (-1074 : Int) := by positivity
    linarith
  -- Within four hundred places of the point numbers are computed, and no number of the
  -- format is further away from it.
  have hplace : -400 ≤ ((Number.digits c).length : Int) + e ∧
      ((Number.digits c).length : Int) + e ≤ 400 := by
    rcases place_spec hc e with ⟨hfirst, hnext⟩
    have hpow : (2 : ℚ) ^ 1074 * 2 < 10 ^ 400 := by
      have hnat : 2 ^ 1074 * 2 < 10 ^ 400 := by decide +kernel
      exact_mod_cast hnat
    have hsmallest : (10 : ℚ) ^ (-400 : Int) < 2 ^ (-1074 : Int) / 2 := by
      rw [zpow_neg, zpow_neg, zpow_ofNat, zpow_ofNat, div_eq_mul_inv, ← mul_inv]
      exact (inv_lt_inv₀ (by positivity) (by positivity)).2 hpow
    have hlargest : (2 : ℚ) ^ 53 * 2 ^ (971 : Int) < 10 ^ (400 : Int) := by
      have hless : (2 : ℚ) ^ (53 + 971) < 2 ^ 1074 := pow_lt_pow_right₀ one_lt_two (by decide)
      have hdouble : (2 : ℚ) ^ 1074 ≤ 2 ^ 1074 * 2 :=
        le_mul_of_one_le_right (by positivity) one_le_two
      rw [zpow_ofNat, zpow_ofNat, ← pow_add]
      exact (hless.trans_le hdouble).trans hpow
    have hbelow := (zpow_lt_zpow_iff_right₀ (by norm_num)).1
      (hsmallest.trans (hlow.trans_lt hnext))
    have habove := (zpow_lt_zpow_iff_right₀ (by norm_num)).1
      (hfirst.trans_lt (hhigh.trans_lt hlargest))
    omega
  have hsmall : ¬ ((Number.digits c).length : Int) + e < -400 := by omega
  have hlarge : ¬ 400 < ((Number.digits c).length : Int) + e := by omega
  unfold Reading.rank
  simp only [Nat.ne_of_gt hc, hsmall, hlarge, decide_false, Bool.or_self, Bool.false_eq_true,
    if_false]
  refine BinaryFormat.nearestRank_eq (by decide) (Nat.mul_pos hc (Nat.pow_pos (by decide)))
    (Nat.pow_pos (by decide)) ?_
  have hvalue : ((c * Nat.pow 10 e.toNat : Nat) : ℚ) / (Nat.pow 10 (-e).toNat : Nat) =
      Number.units c e := by
    rw [Number.units, zpow_eq_div Nat.cast_ofNat e, Nat.cast_mul, mul_div_assoc]
    rfl
  rw [hvalue]
  exact h

end Reading

namespace Binary64

/-- The text of a finite number without its sign is read as its rank. -/
theorem unsigned?_magnitudeText (negative : Bool) (rank : Fin 0x7FF0000000000000) :
    ∃ d r, magnitudeText rank = d :: r ∧ d.isDigit = true ∧
      (Reading.unsigned? negative (magnitudeText rank)).map ofReading =
        some (.finite negative rank) := by
  have hofRank : ofRank negative rank = .finite negative rank := by
    rw [ofRank, dif_pos rank.isLt]
  unfold magnitudeText
  by_cases hzero : rank.val = 0
  · rw [if_pos hzero]
    refine ⟨'0', [], rfl, rfl, ?_⟩
    have hfin : rank = ⟨0, by decide⟩ := Fin.ext hzero
    rw [hfin]
    rfl
  · have hrank : 0 < rank.val := Nat.pos_of_ne_zero hzero
    have hlimit : rank.val < BinaryFormat.double.limit := by
      rw [limit_double]
      exact rank.isLt
    have hrounds := Number.shortest_rounds hrank .up
    rw [if_neg hzero]
    rcases Reading.decimal?_positional negative (Number.shortest .up rank).1
      (Number.shortest .up rank).2 with ⟨⟨d, r, htext, hd⟩, c, e, hread, hunits⟩
    refine ⟨d, r, htext, hd, ?_⟩
    rw [htext] at hread
    rw [← hunits] at hrounds
    simp only [htext, Reading.unsigned?_of_isDigit negative hd, hread, Option.map_some, ofReading,
      Reading.rank_eq hrank hlimit hrounds, hofRank]

/-- Every number is read back from its text. -/
theorem read?_sql (x : Binary64) : read? x.sql = some x := by
  cases x with
  | nan => rfl
  | infinite negative => cases negative <;> rfl
  | finite negative rank =>
    rcases unsigned?_magnitudeText negative rank with ⟨d, r, htext, hd, hread⟩
    cases negative with
    | true => exact hread
    | false =>
      have hsign : Reading.read? (magnitudeText rank) =
          Reading.unsigned? false (magnitudeText rank) := by
        rw [htext]
        exact Reading.read?_of_isDigit hd r
      have hsql : sql (.finite false rank) = magnitudeText rank := rfl
      rw [read?, hsql, hsign]
      exact hread

end Binary64

end ColumnStore
