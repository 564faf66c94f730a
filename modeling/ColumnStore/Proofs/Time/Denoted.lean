import Mathlib.Tactic.Linarith
import Mathlib.Tactic.NormNum
import Mathlib.Tactic.Ring
import ColumnStore.Proofs.Literal.Values
import ColumnStore.Proofs.Number.Real
import ColumnStore.Proofs.Time.Reading

/-!
# The Moments That Texts Denote

An instant is written as a decimal number of seconds, and what a reader of numbers makes of
the text should be the instant, up to the places that were cut off. So it is from 1970 on,
and for instants whose written places are zeros.

Before 1970 it is not so. The seconds of an instant are rounded down and its nanoseconds
count upwards, but the sign stands before both of them. The text of an instant half a second
before 1970 has the seconds of the moment before it, minus one, and then half a second to
the wrong side. Within a negative second the texts run backwards for the same reason.

## Main definitions

* `Reading.denoted?`: The number that a text of a number denotes, and its last unit.
* `Instant.exact`: The seconds since the first moment of 1970, in full.
* `Instant.written`: The text of an instant, with or without a number of places.
* `Instant.unit`: The unit of the last place that is written.
* `Instant.fraction`, `Instant.shown`: The part of a second that is written, and the number
  that the whole text denotes.

## Theorems

* `Instant.denoted?_written`: The number that the text of an instant denotes.
* `Instant.abs_shown_sub_lt_iff`, `Instant.shown_le_shown_iff`: When it is the instant, and
  when later instants have larger numbers.
* `Instant.denotes_of_written`: Texts and literals denote their instants, but for those
  before 1970 with places.
-/

namespace ColumnStore

namespace Reading

/-- The number that is read, and the unit of its last digit. -/
def number? : Reading → Option (ℚ × ℚ)
  | decimal negative c e =>
    some (if negative then -Number.units c e else Number.units c e, Number.units 1 e)
  | _ => none

/-- The number that a text denotes, and the unit of its last digit. -/
def denoted? (s : List Char) : Option (ℚ × ℚ) :=
  (read? s).bind number?

/-- Digits are read as such, with a minus sign before them or without one. -/
theorem read?_sign (negative : Bool) {ds r : List Char} (hne : ds ≠ [])
    (hds : ∀ c ∈ ds, c.isDigit = true) :
    read? ((if negative then ['-'] else []) ++ (ds ++ r)) = decimal? negative (ds ++ r) := by
  cases ds with
  | nil => exact absurd rfl hne
  | cons d ds =>
    have hd := hds d List.mem_cons_self
    cases negative with
    | true => exact unsigned?_of_isDigit true hd _
    | false => exact (read?_of_isDigit hd _).trans (unsigned?_of_isDigit false hd _)

end Reading

namespace Instant

/-- The seconds since the first moment of 1970. -/
def exact (t : Instant) : ℚ :=
  t.seconds + t.nanos / 10 ^ 9

/-- The text of an instant with a number of places, or the one in literals. -/
def written (t : Instant) : Option Nat → List Char
  | none => t.text
  | some places => t.fixed places

/-- The number of places that are written. -/
def places (t : Instant) : Option Nat → Nat
  | none => if t.nanos = 0 then 0 else 6
  | some places => min places 9

/-- The unit of the last digit that is written. -/
def unit (t : Instant) (precision : Option Nat) : ℚ :=
  Number.units 1 (-(t.places precision : Int))

/-- The part of a second that is written. -/
def fraction (t : Instant) (precision : Option Nat) : ℚ :=
  Number.units (t.nanos / 10 ^ (9 - t.places precision)) (-(t.places precision : Int))

/-- The number that is written: the part of a second counts away from zero. -/
def shown (t : Instant) (precision : Option Nat) : ℚ :=
  if t.seconds < 0 then t.seconds - t.fraction precision else t.seconds + t.fraction precision

variable {t : Instant}

theorem places_le (t : Instant) (precision : Option Nat) : t.places precision ≤ 9 := by
  cases precision with
  | none =>
    by_cases h : t.nanos = 0
    · simp [places, h]
    · simp [places, h]
  | some places => exact Nat.min_le_right _ _

theorem written_eq (t : Instant) (precision : Option Nat) :
    t.written precision = t.fixed (t.places precision) := by
  cases precision with
  | none => rfl
  | some places =>
    rw [written, Instant.places, fixed_eq, fixed_eq, placesText, placesText,
      Nat.min_eq_left (Nat.min_le_right places 9)]
    by_cases h : places = 0
    · rw [if_pos h, if_pos (by omega)]
    · rw [if_neg h, if_neg (by omega)]

/-- What is written of an instant is read as a whole number of units of the last place. -/
theorem read?_written (ht : t.nanos < 1000000000) (precision : Option Nat) :
    Reading.read? (t.written precision) = some (.decimal (t.seconds < 0)
      (t.seconds.natAbs * 10 ^ t.places precision + t.nanos / 10 ^ (9 - t.places precision))
      (-(t.places precision : Int))) := by
  rw [written_eq]
  have hle := t.places_le precision
  generalize t.places precision = k at hle ⊢
  have hne := Number.padded_ne_nil 10 t.seconds.natAbs
  have hds : ∀ c ∈ Number.padded 10 t.seconds.natAbs, c.isDigit = true :=
    fun _ h => Number.isDigit_of_mem_padded h
  have hplaces : ∀ c ∈ t.placesText k, c.isDigit = true :=
    fun _ h => Number.isDigit_of_mem_padded (List.mem_of_mem_take h)
  rcases ofDigits_placesText ht k with ⟨hlength, hvalue⟩
  rw [Nat.min_eq_left hle] at hlength hvalue
  have hsign : secondsText t.seconds = (if decide (t.seconds < 0) = true then ['-'] else []) ++
      Number.padded 10 t.seconds.natAbs := by simp only [secondsText, decide_eq_true_eq]
  rw [fixed_eq, hsign, List.append_assoc]
  -- Without places there is no point, and the last place is that of the seconds.
  by_cases hk : k = 0
  · have hread := Reading.read?_sign (t.seconds < 0) hne hds (r := [])
    rw [List.append_nil] at hread
    have hzero : t.nanos / 10 ^ (9 - 0) = 0 := Nat.div_eq_of_lt ht
    rw [if_pos hk, hread, Reading.decimal?_digits _ hne hds, Number.ofDigits_padded, hk, hzero]
    simp
  · rw [if_neg hk, Reading.read?_sign _ hne hds, Reading.decimal?_point _ hne hds hplaces,
      Number.ofDigits_append, Number.ofDigits_padded, hlength, hvalue]

/-- The number that the text of an instant denotes. -/
theorem denoted?_written (ht : t.nanos < 1000000000) (precision : Option Nat) :
    Reading.denoted? (t.written precision) = some (t.shown precision, t.unit precision) := by
  have hunits : Number.units (t.seconds.natAbs * 10 ^ t.places precision +
      t.nanos / 10 ^ (9 - t.places precision)) (-(t.places precision : Int)) =
        (t.seconds.natAbs : ℚ) + t.fraction precision := by
    have hcancel : (10 : ℚ) ^ t.places precision * 10 ^ (-(t.places precision : Int)) = 1 := by
      rw [zpow_neg, zpow_natCast]
      exact mul_inv_cancel₀ (pow_ne_zero _ (by norm_num))
    rw [fraction, Number.units, Number.units, Nat.cast_add, add_mul, Nat.cast_mul, mul_assoc,
      Nat.cast_pow, Nat.cast_ofNat, hcancel, mul_one]
  rw [Reading.denoted?, read?_written ht, Option.bind_some, Reading.number?, hunits, shown, unit]
  by_cases h : t.seconds < 0
  · have habs : (t.seconds.natAbs : ℚ) = -t.seconds := by
      rw [Nat.cast_natAbs, abs_of_neg h, Int.cast_neg]
    rw [decide_eq_true h, if_pos rfl, if_pos h, habs]
    congr 2
    ring
  · have habs : (t.seconds.natAbs : ℚ) = t.seconds := by
      rw [Nat.cast_natAbs, abs_of_nonneg (not_lt.1 h)]
    rw [decide_eq_false h, if_neg Bool.false_ne_true, if_neg h, habs]

theorem unit_eq (t : Instant) (precision : Option Nat) :
    t.unit precision = (10 ^ (9 - t.places precision) : Nat) / 10 ^ 9 := by
  have hsplit : (10 : ℚ) ^ 9 = 10 ^ (9 - t.places precision) * 10 ^ t.places precision := by
    rw [← pow_add, Nat.sub_add_cancel (t.places_le precision)]
  rw [unit, Number.units, zpow_neg, zpow_natCast, hsplit]
  field_simp
  push_cast
  ring

theorem unit_pos (t : Instant) (precision : Option Nat) : 0 < t.unit precision := by
  rw [unit_eq]
  positivity

theorem fraction_eq (t : Instant) (precision : Option Nat) : t.fraction precision =
    (t.nanos / 10 ^ (9 - t.places precision) : Nat) * t.unit precision := by
  rw [fraction, unit, Number.units, Number.units, Nat.cast_one, one_mul]

/-- The part of a second that is written lies less than a unit below the nanoseconds. It is a
    whole number of units. -/
theorem fraction_spec (t : Instant) (precision : Option Nat) :
    t.fraction precision ≤ t.nanos / 10 ^ 9 ∧
      (t.nanos : ℚ) / 10 ^ 9 < t.fraction precision + t.unit precision ∧
      (t.fraction precision = 0 ∨ t.unit precision ≤ t.fraction precision) := by
  have hpos : 0 < 10 ^ (9 - t.places precision) := Nat.pow_pos (by decide)
  have hlow := Nat.div_mul_le_self t.nanos (10 ^ (9 - t.places precision))
  have hhigh := Nat.lt_mul_div_succ t.nanos hpos
  have hunit := t.unit_pos precision
  rw [fraction_eq]
  refine ⟨?_, ?_, ?_⟩
  · have hcast : ((t.nanos / 10 ^ (9 - t.places precision) *
        10 ^ (9 - t.places precision) : Nat) : ℚ) ≤ t.nanos := Nat.cast_le.2 hlow
    rw [Nat.cast_mul] at hcast
    rw [unit_eq]
    linarith
  · have hcast : (t.nanos : ℚ) < (10 ^ (9 - t.places precision) *
        (t.nanos / 10 ^ (9 - t.places precision) + 1) : Nat) := Nat.cast_lt.2 hhigh
    rw [Nat.cast_mul, Nat.cast_add, Nat.cast_one] at hcast
    rw [unit_eq]
    linarith
  · rcases Nat.eq_zero_or_pos (t.nanos / 10 ^ (9 - t.places precision)) with hzero | hone
    · exact Or.inl (by rw [hzero, Nat.cast_zero, zero_mul])
    · have hcast : (1 : ℚ) ≤ (t.nanos / 10 ^ (9 - t.places precision) : Nat) := Nat.one_le_cast.2 hone
      exact Or.inr (le_mul_of_one_le_left hunit.le hcast)

theorem fraction_nonneg (t : Instant) (precision : Option Nat) : 0 ≤ t.fraction precision := by
  rw [fraction_eq]
  exact mul_nonneg (Nat.cast_nonneg _) (t.unit_pos precision).le

theorem fraction_le {t' : Instant} (h : t.nanos ≤ t'.nanos) (precision : Option Nat) :
    t.fraction precision ≤ t'.fraction precision := by
  by_cases hzero : t.nanos = 0
  · have hfraction : t.fraction precision = 0 := by
      rw [fraction_eq, hzero, Nat.zero_div, Nat.cast_zero, zero_mul]
    rw [hfraction]
    exact t'.fraction_nonneg precision
  · -- With nanoseconds, both have the same number of places.
    have hplaces : t'.places precision = t.places precision := by
      cases precision with
      | none => rw [places, places, if_neg hzero, if_neg (by omega)]
      | some places => rfl
    rw [fraction_eq, fraction_eq, unit, unit, hplaces]
    exact mul_le_mul_of_nonneg_right (Nat.cast_le.2 (Nat.div_le_div_right h))
      (t.unit_pos precision).le

/-- The number that is written is less than a unit away from the instant, unless the instant
    is before 1970 and has a part of a second that is written. -/
theorem abs_shown_sub_lt_iff (t : Instant) (precision : Option Nat) :
    |t.shown precision - t.exact| < t.unit precision ↔
      ¬ (t.seconds < 0 ∧ t.fraction precision ≠ 0) := by
  rcases t.fraction_spec precision with ⟨hlow, hhigh, hgrid⟩
  have hpos := t.unit_pos precision
  rw [shown, exact, abs_lt]
  by_cases h : t.seconds < 0
  · rw [if_pos h]
    rcases hgrid with hzero | hunit
    · rw [hzero] at hhigh ⊢
      have hnanos : (0 : ℚ) ≤ t.nanos / 10 ^ 9 := by positivity
      exact iff_of_true ⟨by linarith, by linarith⟩ fun hboth => hboth.2 rfl
    · -- The part of a second is on the wrong side, and so is the one that was cut off.
      have hnanos : (0 : ℚ) ≤ t.nanos / 10 ^ 9 := by positivity
      exact iff_of_false (fun hboth => by linarith) fun hnot => hnot ⟨h, by linarith⟩
  · rw [if_neg h]
    exact iff_of_true ⟨by linarith, by linarith⟩ fun hboth => h hboth.1

theorem nanos_div_lt_one (ht : t.nanos < 1000000000) : (t.nanos : ℚ) / 10 ^ 9 < 1 := by
  rw [div_lt_one (by norm_num)]
  exact_mod_cast ht

theorem fraction_lt_one (ht : t.nanos < 1000000000) (precision : Option Nat) :
    t.fraction precision < 1 :=
  (t.fraction_spec precision).1.trans_lt (nanos_div_lt_one ht)

/-- Instants that are not leap seconds are ordered by their seconds, and then by their
    nanoseconds. -/
theorem seconds_lt_or_of_exact_le {t' : Instant} (ht' : t'.nanos < 1000000000)
    (hle : t.exact ≤ t'.exact) :
    t.seconds < t'.seconds ∨ t'.seconds = t.seconds ∧ t.nanos ≤ t'.nanos := by
  have hnanos : (0 : ℚ) ≤ t.nanos / 10 ^ 9 := by positivity
  have hnanos' := nanos_div_lt_one ht'
  rw [exact, exact] at hle
  -- The nanoseconds of an earlier second do not reach into a later one.
  rcases lt_trichotomy t.seconds t'.seconds with hlt | heq | hgt
  · exact Or.inl hlt
  · rw [heq] at hle
    have hdiv : (t.nanos : ℚ) ≤ t'.nanos := by linarith
    exact Or.inr ⟨heq.symm, Nat.cast_le.1 hdiv⟩
  · have hstep : (t'.seconds : ℚ) + 1 ≤ t.seconds := by exact_mod_cast hgt
    linarith

/-- Later instants have larger numbers, unless they are in one second before 1970 and differ
    in what is written of it. -/
theorem shown_le_shown_iff {t' : Instant} (ht : t.nanos < 1000000000)
    (ht' : t'.nanos < 1000000000) (hle : t.exact ≤ t'.exact) (precision : Option Nat) :
    t.shown precision ≤ t'.shown precision ↔
      ¬ (t.seconds < 0 ∧ t'.seconds = t.seconds ∧
        t.fraction precision < t'.fraction precision) := by
  have hlow := t.fraction_nonneg precision
  have hlow' := t'.fraction_nonneg precision
  have hhigh := fraction_lt_one ht precision
  have hhigh' := fraction_lt_one ht' precision
  unfold shown
  rcases seconds_lt_or_of_exact_le ht' hle with hlt | ⟨heq, hnanos⟩
  · -- A part of a second is not enough to pass over into another second.
    have hstep : (t.seconds : ℚ) + 1 ≤ t'.seconds := by exact_mod_cast hlt
    refine iff_of_true ?_ fun hall => absurd hall.2.1 (by omega)
    by_cases h : t.seconds < 0
    · rw [if_pos h]
      split <;> linarith
    · rw [if_neg h, if_neg (by omega)]
      linarith
  · have hfraction := fraction_le hnanos precision
    rw [heq]
    by_cases h : t.seconds < 0
    · rw [if_pos h, if_pos h]
      constructor
      · rintro hshown ⟨-, -, hless⟩
        linarith
      · intro hnot
        have hge : ¬ t.fraction precision < t'.fraction precision :=
          fun hless => hnot ⟨h, rfl, hless⟩
        linarith
    · rw [if_neg h, if_neg h]
      exact iff_of_true (by linarith) fun hall => h hall.1

/-- The text of an instant that is no leap second is a number less than a unit of the last
    place away from it, and later instants have no smaller numbers, except before 1970: there
    the first holds if what is written of the second is zero, and the second holds unless the
    instants are in one second and differ in what is written of it. The literal of an instant
    is its text. -/
theorem denotes_of_written (t : Instant) (ht : t.nanos < 1000000000) (precision : Option Nat) :
    Literal.read (Value.dateTime t).sql = .ok (.scalar (String.ofList (t.written none))) ∧
    ∃ x unit, Reading.denoted? (t.written precision) = some (x, unit) ∧
      (|x - t.exact| < unit ↔ ¬ (t.seconds < 0 ∧ t.fraction precision ≠ 0)) ∧
      ∀ t' : Instant, t'.nanos < 1000000000 → t.exact ≤ t'.exact →
        ∃ x' unit', Reading.denoted? (t'.written precision) = some (x', unit') ∧
          (x ≤ x' ↔ ¬ (t.seconds < 0 ∧ t'.seconds = t.seconds ∧
            t.fraction precision < t'.fraction precision)) := by
  refine ⟨Literal.read_of_notates (Literal.notates_quote t.text), t.shown precision,
    t.unit precision, denoted?_written ht precision, t.abs_shown_sub_lt_iff precision, ?_⟩
  intro t' ht' hle
  exact ⟨t'.shown precision, t'.unit precision, denoted?_written ht' precision,
    shown_le_shown_iff ht ht' hle precision⟩

/-- Two moments of one second, with three places. -/
theorem denotes_of_moments :
    ∃ x unit, Reading.denoted? "1700000000.123".toList = some (x, unit) ∧
      |x - exact ⟨1700000000, 123456789, by decide, by decide⟩| < unit ∧
      ∃ x' unit', Reading.denoted? "1700000000.987".toList = some (x', unit') ∧ x ≤ x' := by
  rcases denotes_of_written ⟨1700000000, 123456789, by decide, by decide⟩ (by decide) (some 3)
    with ⟨-, x, unit, hx, hdistance, hlater⟩
  rcases hlater ⟨1700000000, 987654321, by decide, by decide⟩ (by decide)
    (by norm_num [exact]) with ⟨x', unit', hx', hle⟩
  exact ⟨x, unit, hx, hdistance.2 fun h => absurd h.1 (by decide), x', unit', hx',
    hle.2 fun h => absurd h.1 (by decide)⟩

/-- The last half second before 1970. -/
def lastHalf : Instant := ⟨-1, 500000000, by decide, by decide⟩

/-- The last three quarters of a second before 1970. -/
def lastQuarters : Instant := ⟨-1, 250000000, by decide, by decide⟩

/-- The text of the last half second denotes a moment that is a full second too early. It
    also lies before the one that the text of an earlier instant denotes. -/
theorem lastHalf_denotes_earlier :
    (∃ x unit, Reading.denoted? lastHalf.text = some (x, unit) ∧ ¬ |x - lastHalf.exact| < unit) ∧
      ∃ x x' unit, lastQuarters.exact ≤ lastHalf.exact ∧
        Reading.denoted? lastQuarters.text = some (x, unit) ∧
        Reading.denoted? lastHalf.text = some (x', unit) ∧ x' < x := by
  have hhalf := denoted?_written (t := lastHalf) (by decide) none
  have hquarters := denoted?_written (t := lastQuarters) (by decide) none
  have hfraction : lastHalf.fraction none = 1 / 2 := by
    norm_num [fraction, places, lastHalf, Number.units]
  have hfraction' : lastQuarters.fraction none = 1 / 4 := by
    norm_num [fraction, places, lastQuarters, Number.units]
  refine ⟨⟨_, _, hhalf, ?_⟩, _, _, _, ?_, hquarters, hhalf, ?_⟩
  · rw [abs_shown_sub_lt_iff, hfraction]
    exact not_not.2 ⟨by decide, by norm_num⟩
  · norm_num [exact, lastHalf, lastQuarters]
  · rw [shown, shown, hfraction, hfraction']
    norm_num [lastHalf, lastQuarters]

end Instant

end ColumnStore
