import ColumnStore.Proofs.Number.Whole
import ColumnStore.Value.Sql

/-!
# Words

Numbers, truth values and the missing value are written without quotes. Each of
them is one word, perhaps after a minus sign, and none of these words is one
that the language of conditions uses for itself.

## Main definitions

* `isWordChar`: The characters that words are made of.
* `keywords`: The words of the language of conditions.
* `IsConstant`: A nonempty word that is no word of the language.
* `IsNumeral`: Such a word, perhaps after a minus sign.
* `IsFigures`, `IsNumber`: The same for words of digits and points.

## Theorems

* `isNumber_signed`, `isNumeral_signed`: Integers are numbers and so are numerals.
* `isNumber_float_or`, `isNumeral_float`: Floating-point numbers are numbers or one of
  three words, and so are numerals.
* `isNumber_decimal`, `isNumeral_decimal`: Decimals are numbers and so are numerals.
-/

namespace ColumnStore

namespace Lexical

/-- The characters that words are made of. -/
def isWordChar (c : Char) : Bool :=
  c.isAlphanum || c = '_' || c = '.'

/-- The words that the language of conditions uses for itself. -/
def keywords : List (List Char) :=
  ["OR".toList, "AND".toList, "NOT".toList, "IN".toList, "LIKE".toList, "ILIKE".toList,
    "BETWEEN".toList]

/-- A word that stands for a constant. -/
structure IsConstant (w : List Char) : Prop where
  /-- It is not empty. -/
  ne_nil : w ≠ []
  /-- It is one word. -/
  isWordChar : ∀ c ∈ w, isWordChar c = true
  /-- The language has no other use for it. -/
  not_mem_keywords : w ∉ keywords

/-- A constant, perhaps after a minus sign. -/
def IsNumeral (s : List Char) : Prop :=
  ∃ w, IsConstant w ∧ (s = w ∨ s = '-' :: w)

/-- The characters of a number without its sign. -/
def isFigure (c : Char) : Bool :=
  c.isDigit || c = '.'

theorem isWordChar_of_isFigure {c : Char} (h : isFigure c = true) : isWordChar c = true := by
  simp only [isFigure, Bool.or_eq_true, decide_eq_true_eq] at h
  rcases h with h | rfl
  · simp [isWordChar, Char.isAlphanum, h]
  · decide

/-- Each word of the language has a letter in it. -/
theorem all_isFigure_of_mem {w : List Char} (h : w ∈ keywords) : w.all isFigure = false := by
  simp only [keywords, List.mem_cons, List.not_mem_nil, or_false] at h
  rcases h with rfl | rfl | rfl | rfl | rfl | rfl | rfl <;> decide

/-- Figures, one at least. -/
structure IsFigures (w : List Char) : Prop where
  /-- There is one. -/
  ne_nil : w ≠ []
  /-- There is nothing else. -/
  isFigure : ∀ c ∈ w, isFigure c = true

/-- Figures, perhaps after a minus sign. -/
def IsNumber (s : List Char) : Prop :=
  ∃ w, IsFigures w ∧ (s = w ∨ s = '-' :: w)

theorem IsFigures.isConstant {w : List Char} (h : IsFigures w) : IsConstant w := by
  refine ⟨h.ne_nil, fun c hc => isWordChar_of_isFigure (h.isFigure c hc), fun hkey => ?_⟩
  have hletter := all_isFigure_of_mem hkey
  rw [List.all_eq_true.2 h.isFigure] at hletter
  exact absurd hletter (by decide)

theorem IsNumber.isNumeral {s : List Char} (h : IsNumber s) : IsNumeral s := by
  rcases h with ⟨w, hw, hs⟩
  exact ⟨w, hw.isConstant, hs⟩

theorem isFigure_of_mem_digits {n : Nat} {c : Char} (h : c ∈ Number.digits n) :
    isFigure c = true := by
  simp [isFigure, Number.isDigit_of_mem_digits h]

theorem isFigures_digits (n : Nat) : IsFigures (Number.digits n) :=
  ⟨Number.digits_ne_nil n, fun _ h => isFigure_of_mem_digits h⟩

theorem isNumber_signed (n : Int) : IsNumber (Number.signed n) := by
  refine ⟨Number.digits n.natAbs, isFigures_digits n.natAbs, ?_⟩
  by_cases h : n < 0
  · exact Or.inr (by rw [Number.signed, if_pos h])
  · exact Or.inl (by rw [Number.signed, if_neg h])

theorem isFigures_pointed {ds : List Char} (h : ∀ c ∈ ds, isFigure c = true) (n : Nat) :
    IsFigures (ds.take n ++ '.' :: ds.drop n) := by
  refine ⟨by simp, fun c hc => ?_⟩
  rw [List.mem_append, List.mem_cons] at hc
  rcases hc with hc | rfl | hc
  · exact h c (List.mem_of_mem_take hc)
  · decide
  · exact h c (List.mem_of_mem_drop hc)

/-- Figures with zeros before them are figures. -/
theorem isFigure_of_mem_zeros {ds : List Char} (h : ∀ c ∈ ds, isFigure c = true) (n : Nat)
    {c : Char} (hc : c ∈ List.replicate n '0' ++ ds) : isFigure c = true := by
  rcases List.mem_append.1 hc with hc | hc
  · rw [List.eq_of_mem_replicate hc]
    decide
  · exact h c hc

theorem isFigures_positional (c : Nat) (t : Int) : IsFigures (Number.positional c t) := by
  have hdigits : ∀ d ∈ Number.digits c, isFigure d = true := fun _ h => isFigure_of_mem_digits h
  -- Zeros are appended, or a point is put between the digits.
  unfold Number.positional
  by_cases h : 0 ≤ t
  · rw [if_pos h]
    refine ⟨by simp [Number.digits_ne_nil], fun d hd => ?_⟩
    rcases List.mem_append.1 hd with hd | hd
    · exact hdigits d hd
    · rw [List.eq_of_mem_replicate hd]
      decide
  · rw [if_neg h]
    exact isFigures_pointed (fun _ h => isFigure_of_mem_zeros hdigits _ h) _

theorem isFigures_magnitudeText (rank : Nat) : IsFigures (Binary64.magnitudeText rank) := by
  unfold Binary64.magnitudeText
  by_cases h : rank = 0
  · rw [if_pos h]
    exact ⟨by decide, List.all_eq_true.1 (by decide)⟩
  · rw [if_neg h]
    exact isFigures_positional _ _

/-- A floating-point number is written as a number, unless it has no digits. -/
theorem isNumber_float_or (x : Binary64) :
    IsNumber x.sql ∨ x.sql ∈ ["nan".toList, "inf".toList, "-inf".toList] := by
  cases x with
  | nan => exact Or.inr (by decide)
  | infinite negative =>
      cases negative
      · exact Or.inr (by decide)
      · exact Or.inr (by decide)
  | finite negative rank =>
      refine Or.inl ⟨Binary64.magnitudeText rank, isFigures_magnitudeText rank, ?_⟩
      cases negative
      · exact Or.inl rfl
      · exact Or.inr rfl

/-- The figures of a decimal, which its sign may precede. -/
theorem isNumber_decimal (d : Decimal) : IsNumber d.text := by
  have hpadded : ∀ c ∈ Number.padded (d.scale + 1) d.mantissa, isFigure c = true :=
    fun _ h => isFigure_of_mem_zeros (fun _ h => isFigure_of_mem_digits h) _ h
  -- The sign comes before whatever figures there are.
  have hsign : ∀ ds, IsFigures ds → IsNumber (if d.negative then '-' :: ds else ds) := by
    intro ds hds
    cases d.negative
    · exact ⟨ds, hds, Or.inl rfl⟩
    · exact ⟨ds, hds, Or.inr rfl⟩
  refine hsign _ ?_
  by_cases h : d.scale = 0
  · rw [if_pos h]
    exact ⟨Number.padded_ne_nil _ _, hpadded⟩
  · rw [if_neg h]
    exact isFigures_pointed hpadded _

theorem isNumeral_signed (n : Int) : IsNumeral (Number.signed n) :=
  (isNumber_signed n).isNumeral

theorem isNumeral_float (x : Binary64) : IsNumeral x.sql := by
  rcases isNumber_float_or x with h | h
  · exact h.isNumeral
  · simp only [List.mem_cons, List.not_mem_nil, or_false] at h
    rcases h with h | h | h
    · exact ⟨_, ⟨by decide, List.all_eq_true.1 (by decide), by decide⟩, Or.inl h⟩
    · exact ⟨_, ⟨by decide, List.all_eq_true.1 (by decide), by decide⟩, Or.inl h⟩
    · exact ⟨"inf".toList, ⟨by decide, List.all_eq_true.1 (by decide), by decide⟩, Or.inr h⟩

theorem isNumeral_decimal (d : Decimal) : IsNumeral d.text :=
  (isNumber_decimal d).isNumeral

end Lexical

end ColumnStore
