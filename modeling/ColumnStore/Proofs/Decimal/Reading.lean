import ColumnStore.Decimal.Reader
import ColumnStore.Proofs.Number.Whole

/-!
# Reading Decimals Back

A decimal that has no more places than decimals are created with is read back from
its text, place by place. The one thing that is lost is the sign of a zero. Its
digits never outgrow the mantissa while they are read, since all of them together
are the mantissa.

## Main definitions

* `Decimal.withoutZeroSign`: A decimal whose zero is not below zero.

## Theorems

* `Decimal.scan_whole`, `Decimal.scan_places`: Digits are read before the point and
  behind it.
* `Decimal.read?_text`: A decimal is read back but for the sign of a zero.
* `Decimal.withoutZeroSign_agrees`: That sign does not count.
-/

namespace ColumnStore

namespace Decimal

/-- The same number, where a zero is not below zero. -/
def withoutZeroSign (d : Decimal) : Decimal :=
  { d with negative := d.negative && d.mantissa ≠ 0 }

theorem withoutZeroSign_agrees (d : Decimal) : d.withoutZeroSign.agrees d = true := by
  simp only [agrees, withoutZeroSign, units]
  by_cases h : d.mantissa = 0
  · simp [h]
  · simp [h]

/-- Digits that are read after a number make it no smaller. -/
theorem le_foldl_digits (m : Nat) (ds : List Char) :
    m ≤ ds.foldl (fun n c => 10 * n + Number.digitValue c) m := by
  rw [Number.foldl_digitValue]
  have hpos : m * 1 ≤ m * 10 ^ ds.length := Nat.mul_le_mul_left m (Nat.pow_pos (by decide))
  omega

/-- Digits before the point are read while the mantissa has room for them. -/
theorem scan_whole {started : Bool} {m : Nat} {ds r : List Char}
    (hds : ∀ c ∈ ds, c.isDigit = true)
    (hroom : ds.foldl (fun n c => 10 * n + Number.digitValue c) m < limit) :
    scan false started m 0 (ds ++ r) =
      scan false (started || !ds.isEmpty)
        (ds.foldl (fun n c => 10 * n + Number.digitValue c) m) 0 r := by
  induction ds generalizing m started with
  | nil => simp
  | cons c ds ih =>
    -- The mantissa only grows, so that it has room now if it has room at the end.
    have hc := hds c List.mem_cons_self
    have hnext : 10 * m + Number.digitValue c < limit :=
      Nat.lt_of_le_of_lt (le_foldl_digits _ ds) hroom
    rw [List.cons_append, scan]
    simp only [hc, hnext, if_true, Bool.false_and, Bool.false_eq_true, if_false]
    rw [ih (fun d hd => hds d (List.mem_cons_of_mem c hd)) hroom]
    simp

/-- Digits behind the point are read while the mantissa has room for them and there
    are not too many places. The last possible place ends the text. -/
theorem scan_places {m places : Nat} {ds : List Char} (hds : ∀ c ∈ ds, c.isDigit = true)
    (hroom : ds.foldl (fun n c => 10 * n + Number.digitValue c) m < limit)
    (hplaces : places + ds.length ≤ maxScale) :
    scan true true m places ds =
      some (ds.foldl (fun n c => 10 * n + Number.digitValue c) m, places + ds.length) := by
  induction ds generalizing m places with
  | nil => rfl
  | cons c ds ih =>
    have hc := hds c List.mem_cons_self
    have hnext : 10 * m + Number.digitValue c < limit :=
      Nat.lt_of_le_of_lt (le_foldl_digits _ ds) hroom
    rw [List.length_cons] at hplaces
    rw [scan]
    simp only [hc, hnext, if_true, Bool.true_and, decide_eq_true_eq]
    -- At the last possible place there are no more digits, so that none is rounded away.
    by_cases hlast : maxScale ≤ places + 1
    · have hnil : ds = [] := List.eq_nil_of_length_eq_zero (by omega)
      subst hnil
      simp [hlast, roundLast]
    · rw [if_neg hlast, ih (fun d hd => hds d (List.mem_cons_of_mem c hd)) hroom (by omega),
        List.foldl_cons, List.length_cons]
      congr 2
      omega

/-- The digits of a decimal without its sign. -/
def figures (d : Decimal) : List Char :=
  let ds := Number.padded (d.scale + 1) d.mantissa
  if d.scale = 0 then ds
  else ds.take (ds.length - d.scale) ++ '.' :: ds.drop (ds.length - d.scale)

/-- The digits of a decimal are read as its mantissa and its scale. -/
theorem scan_figures {d : Decimal} (hd : d.scale ≤ maxScale) :
    scan false false 0 0 d.figures = some (d.mantissa, d.scale) := by
  have hds : ∀ c ∈ Number.padded (d.scale + 1) d.mantissa, c.isDigit = true :=
    fun _ h => Number.isDigit_of_mem_padded h
  have hall : (Number.padded (d.scale + 1) d.mantissa).foldl
      (fun n c => 10 * n + Number.digitValue c) 0 = d.mantissa := Number.ofDigits_padded _ _
  have hlen := Number.le_length_padded (d.scale + 1) d.mantissa
  unfold figures
  generalize Number.padded (d.scale + 1) d.mantissa = ds at hds hall hlen
  by_cases h : d.scale = 0
  · have hne : ds.isEmpty = false := by
      cases ds with
      | nil => simp at hlen
      | cons c ds => rfl
    rw [if_pos h]
    have hscan : scan false false 0 0 (ds ++ []) = _ :=
      scan_whole hds (by rw [hall]; exact d.mantissa_lt)
    rw [List.append_nil] at hscan
    rw [hscan, hall, hne, h]
    rfl
  · -- The point cuts the digits in two, and reading both in turn is reading all.
    have hcut : (ds.drop (ds.length - d.scale)).foldl (fun n c => 10 * n + Number.digitValue c)
        ((ds.take (ds.length - d.scale)).foldl (fun n c => 10 * n + Number.digitValue c) 0) =
          d.mantissa := by
      rw [← List.foldl_append, List.take_append_drop, hall]
    have hplaces : (ds.drop (ds.length - d.scale)).length = d.scale := by
      rw [List.length_drop]
      omega
    have hfirst : (ds.take (ds.length - d.scale)).isEmpty = false := by
      rw [List.isEmpty_eq_false_iff, ← List.length_pos_iff, List.length_take]
      omega
    have hroom := le_foldl_digits
      ((ds.take (ds.length - d.scale)).foldl (fun n c => 10 * n + Number.digitValue c) 0)
      (ds.drop (ds.length - d.scale))
    rw [hcut] at hroom
    rw [if_neg h, scan_whole (fun c hc => hds c (List.mem_of_mem_take hc))
      (Nat.lt_of_le_of_lt hroom d.mantissa_lt), hfirst, scan]
    have hpoint : scan true true
        ((ds.take (ds.length - d.scale)).foldl (fun n c => 10 * n + Number.digitValue c) 0) 0
        (ds.drop (ds.length - d.scale)) = some (d.mantissa, d.scale) := by
      rw [scan_places (fun c hc => hds c (List.mem_of_mem_drop hc))
        (by rw [hcut]; exact d.mantissa_lt) (by omega), hcut, hplaces, Nat.zero_add]
    exact hpoint

/-- The digits of a decimal start with a digit. -/
theorem figures_ne_cons {d : Decimal} {c : Char} (hc : c.isDigit = false) (s : List Char) :
    d.figures ≠ c :: s := by
  have hds : ∀ c ∈ Number.padded (d.scale + 1) d.mantissa, c.isDigit = true :=
    fun _ h => Number.isDigit_of_mem_padded h
  have hlen := Number.le_length_padded (d.scale + 1) d.mantissa
  unfold figures
  generalize Number.padded (d.scale + 1) d.mantissa = ds at hds hlen
  by_cases h : d.scale = 0
  · have hne : ds ≠ [] := by
      rintro rfl
      simp at hlen
    have hstart := Number.append_ne_cons (r := []) (s := s) hne hds hc
    rw [List.append_nil] at hstart
    rw [if_pos h]
    exact hstart
  · have hne : ds.take (ds.length - d.scale) ≠ [] := by
      rw [← List.length_pos_iff, List.length_take]
      omega
    rw [if_neg h]
    exact Number.append_ne_cons hne (fun c hc => hds c (List.mem_of_mem_take hc)) hc

/-- A decimal with no more places than decimals are created with is read back, but for
    the sign of a zero. -/
theorem read?_text {d : Decimal} (hd : d.scale ≤ maxScale) :
    Decimal.read? d.text = some d.withoutZeroSign := by
  have hunsigned (negative : Bool) (hsign : negative = d.negative) :
      unsigned? negative d.figures = some d.withoutZeroSign := by
    subst hsign
    simp only [unsigned?, scan_figures hd, Option.bind_eq_bind, Option.bind_some, unsignedZero?,
      make?, dif_pos d.mantissa_lt]
    rfl
  have htext : d.text = if d.negative then '-' :: d.figures else d.figures := rfl
  have hplain : plain? d.text = some d.withoutZeroSign := by
    rw [htext]
    cases hsign : d.negative with
    | true => exact hunsigned true hsign.symm
    | false =>
      have hfigures := hunsigned false hsign.symm
      -- Without a sign the text starts with a digit, so that no sign is taken off.
      show plain? d.figures = _
      unfold plain?
      split
      · next he => exact absurd he (figures_ne_cons (by decide) _)
      · next he => exact absurd he (figures_ne_cons (by decide) _)
      · exact hfigures
  rw [Decimal.read?, hplain]
  rfl

end Decimal

end ColumnStore
