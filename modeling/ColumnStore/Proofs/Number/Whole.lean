import ColumnStore.Number.Whole
import Mathlib.Algebra.Ring.Nat

/-!
# Reading Whole Numbers Back

What is written in digits is read as the number it was written for. The digits of
a number denote it, zeros in front of them do not change that, and a text of digits
that is cut in two denotes its first part, moved by the length of the second one,
and the second one.

## Theorems

* `ofDigits_append`: The number of digits that are cut in two.
* `ofDigits_lt`: A number is below the power of ten of its length.
* `ofDigits_digits`, `ofDigits_padded`: The digits of a number denote it.
* `length_padded`: The width of a number that fits.
* `integer?_signed`: An integer is read back.
* `trim_of_forall_isSpace`: A text without white space is not trimmed.
-/

namespace ColumnStore

namespace Number

/-- Digits after a number move it by their length. -/
theorem foldl_digitValue (n : Nat) (s : List Char) :
    s.foldl (fun n c => 10 * n + digitValue c) n = n * 10 ^ s.length + ofDigits s := by
  -- Induction on the digits, whatever number was read before them.
  induction s generalizing n with
  | nil => simp [ofDigits]
  | cons c s ih =>
    have hone : ofDigits (c :: s) =
        s.foldl (fun n c => 10 * n + digitValue c) (10 * 0 + digitValue c) := rfl
    rw [List.foldl_cons, ih, hone, ih, List.length_cons, Nat.pow_succ, Nat.add_mul, Nat.add_mul]
    have hmove : 10 * n * 10 ^ s.length = n * (10 ^ s.length * 10) := by
      rw [Nat.mul_comm 10 n, Nat.mul_assoc, Nat.mul_comm 10]
    omega

/-- Digits that are cut in two denote the first part, moved by the length of the
    second one, and the second one. -/
theorem ofDigits_append (s t : List Char) :
    ofDigits (s ++ t) = ofDigits s * 10 ^ t.length + ofDigits t := by
  rw [ofDigits, List.foldl_append, foldl_digitValue]
  rfl

theorem toNat_of_isDigit {c : Char} (h : c.isDigit = true) : 48 ≤ c.toNat ∧ c.toNat ≤ 57 := by
  simp only [Char.isDigit, Bool.and_eq_true, decide_eq_true_eq] at h
  exact ⟨UInt32.le_iff_toNat_le.1 h.1, UInt32.le_iff_toNat_le.1 h.2⟩

theorem digitValue_digitChar {d : Nat} (h : d < 10) : digitValue (Nat.digitChar d) = d := by
  have hall : ∀ d < 10, digitValue (Nat.digitChar d) = d := by decide
  exact hall d h

theorem digitValue_lt {c : Char} (h : c.isDigit = true) : digitValue c < 10 := by
  have hle := (toNat_of_isDigit h).2
  have hzero : '0'.toNat = 48 := rfl
  unfold digitValue
  omega

/-- A number is below the power of ten of its length. -/
theorem ofDigits_lt {s : List Char} (h : ∀ c ∈ s, c.isDigit = true) :
    ofDigits s < 10 ^ s.length := by
  induction s with
  | nil => decide
  | cons c s ih =>
    have hs := ih fun d hd => h d (List.mem_cons_of_mem c hd)
    have hc := digitValue_lt (h c List.mem_cons_self)
    have hone : ofDigits [c] = digitValue c := by simp [ofDigits]
    -- The first digit is nine at most, and the others are below the next power of ten.
    have hmul : digitValue c * 10 ^ s.length ≤ 9 * 10 ^ s.length :=
      Nat.mul_le_mul_right _ (by omega)
    rw [← List.singleton_append, ofDigits_append, hone, List.length_append, List.length_singleton,
      Nat.pow_add, Nat.pow_one]
    omega

theorem digits_ne_nil (n : Nat) : digits n ≠ [] :=
  Nat.toDigits_ne_nil

/-- A text that starts with digits starts with no other character. -/
theorem append_ne_cons {ds r s : List Char} {c : Char} (hne : ds ≠ [])
    (hds : ∀ c ∈ ds, c.isDigit = true) (hc : c.isDigit = false) : ds ++ r ≠ c :: s := by
  intro h
  cases ds with
  | nil => exact hne rfl
  | cons d ds =>
    have hd := hds d List.mem_cons_self
    rw [(List.cons.inj h).1, hc] at hd
    exact absurd hd (by decide)

theorem isDigit_of_mem_digits {n : Nat} {c : Char} (h : c ∈ digits n) : c.isDigit = true :=
  Nat.isDigit_of_mem_toDigits (by decide) (by decide) h

/-- The digits of a number denote it. -/
@[simp]
theorem ofDigits_digits (n : Nat) : ofDigits (digits n) = n := by
  have hone {d : Nat} (hd : d < 10) : ofDigits [Nat.digitChar d] = d := by
    simp [ofDigits, digitValue_digitChar hd]
  -- The last digit is the remainder, and those before it are the ones of the quotient.
  induction n using Nat.strongRecOn with
  | _ n ih =>
    unfold digits
    rw [Nat.toDigits_eq_if (by decide)]
    by_cases h : n < 10
    · rw [if_pos h]
      exact hone h
    · have hdiv : ofDigits (Nat.toDigits 10 (n / 10)) = n / 10 := ih (n / 10) (by omega)
      rw [if_neg h, ofDigits_append, hdiv, hone (Nat.mod_lt n (by decide))]
      simp only [List.length_singleton]
      omega

/-- A number is below the power of ten of its number of digits. -/
theorem lt_pow_length_digits (n : Nat) : n < 10 ^ (digits n).length := by
  have h := ofDigits_lt fun c (hc : c ∈ digits n) => isDigit_of_mem_digits hc
  rwa [ofDigits_digits] at h

/-- The first digit of a number is not zero. -/
theorem pow_length_digits_le {n : Nat} (hn : 0 < n) : 10 ^ ((digits n).length - 1) ≤ n := by
  by_cases hone : (digits n).length - 1 = 0
  · rw [hone]
    exact hn
  · refine Nat.le_of_not_lt ?_
    intro hlt
    have hle := (Nat.length_toDigits_le_iff (by decide) (by omega)).2 hlt
    have hself : (Nat.toDigits 10 n).length = (digits n).length := rfl
    omega

theorem isDigit_of_mem_padded {width n : Nat} {c : Char} (h : c ∈ padded width n) :
    c.isDigit = true := by
  rcases List.mem_append.1 h with h | h
  · rw [List.eq_of_mem_replicate h]
    rfl
  · exact isDigit_of_mem_digits h

/-- Zeros denote nothing. -/
theorem ofDigits_replicate (k : Nat) : ofDigits (List.replicate k '0') = 0 := by
  induction k with
  | zero => rfl
  | succ k ih =>
    rw [List.replicate_succ, ← List.singleton_append, ofDigits_append, ih]
    simp [ofDigits, digitValue]

/-- Zeros in front of a number do not change it. -/
@[simp]
theorem ofDigits_padded (width n : Nat) : ofDigits (padded width n) = n := by
  rw [padded, ofDigits_append, ofDigits_replicate, ofDigits_digits, Nat.zero_mul, Nat.zero_add]

/-- A number that fits a width takes just so many digits. -/
theorem length_padded {width n : Nat} (hw : 0 < width) (h : n < 10 ^ width) :
    (padded width n).length = width := by
  have hle : (digits n).length ≤ width := (Nat.length_toDigits_le_iff (by decide) hw).2 h
  rw [padded, List.length_append, List.length_replicate]
  omega

theorem le_length_padded (width n : Nat) : width ≤ (padded width n).length := by
  rw [padded, List.length_append, List.length_replicate]
  omega

theorem padded_ne_nil (width n : Nat) : padded width n ≠ [] := by
  simp [padded, digits_ne_nil]

/-- Some digits are read as the number that they denote. -/
theorem ofDigits?_of_isDigit {s : List Char} (hne : s ≠ []) (h : ∀ c ∈ s, c.isDigit = true) :
    ofDigits? s = some (ofDigits s) := by
  rw [ofDigits?, if_pos ⟨hne, List.all_eq_true.2 h⟩]

/-- Some digits are read as an integer from zero up. -/
theorem integer?_of_isDigit {s : List Char} (hne : s ≠ []) (h : ∀ c ∈ s, c.isDigit = true) :
    integer? s = some (ofDigits s : Int) := by
  have hother {c : Char} (hc : c.isDigit = false) (t : List Char) : s ≠ c :: t := by
    have hstart := append_ne_cons (r := []) (s := t) hne h hc
    rwa [List.append_nil] at hstart
  -- A text that starts with a digit has no sign to be taken off.
  unfold integer?
  split
  · exact absurd rfl (hother (by decide) _)
  · exact absurd rfl (hother (by decide) _)
  · rw [ofDigits?_of_isDigit hne h]
    rfl

/-- Some digits after a minus sign are read as an integer below zero, or as zero. -/
theorem integer?_neg {s : List Char} (hne : s ≠ []) (h : ∀ c ∈ s, c.isDigit = true) :
    integer? ('-' :: s) = some (-(ofDigits s : Int)) := by
  simp only [integer?, ofDigits?_of_isDigit hne h]
  rfl

/-- The digits of an integer after its sign are read as it. -/
@[simp]
theorem integer?_signed (n : Int) : integer? (signed n) = some n := by
  have hdigits : ∀ c ∈ digits n.natAbs, c.isDigit = true := fun _ h => isDigit_of_mem_digits h
  unfold signed
  by_cases h : n < 0
  · rw [if_pos h, integer?_neg (digits_ne_nil _) hdigits, ofDigits_digits]
    congr 1
    omega
  · rw [if_neg h, integer?_of_isDigit (digits_ne_nil _) hdigits, ofDigits_digits]
    congr 1
    omega

/-- An integer between two bounds is read back between them. -/
theorem integerBetween?_signed {lo hi n : Int} (h : lo ≤ n ∧ n ≤ hi) :
    integerBetween? lo hi (signed n) = some n := by
  simp [integerBetween?, h.1, h.2]

end Number

namespace Text

theorem isSpace_of_isDigit {c : Char} (h : c.isDigit = true) : isSpace c = false := by
  rcases Number.toNat_of_isDigit h with ⟨hge, hle⟩
  simp only [isSpace, Bool.or_eq_false_iff, Bool.and_eq_false_iff, decide_eq_false_iff_not]
  omega

/-- Nothing is dropped from a text whose characters are all of another class. -/
theorem dropWhile_of_forall {p : Char → Bool} {s : List Char} (h : ∀ c ∈ s, p c = false) :
    s.dropWhile p = s := by
  cases s with
  | nil => rfl
  | cons c s => rw [List.dropWhile_cons_of_neg (by simp [h c List.mem_cons_self])]

/-- A run of characters of a class ends where another class begins. -/
theorem span_append {p : Char → Bool} {w r : List Char} (hw : ∀ c ∈ w, p c = true)
    (hr : ∀ c ∈ r.head?, p c = false) :
    (w ++ r).takeWhile p = w ∧ (w ++ r).dropWhile p = r := by
  rw [List.takeWhile_append_of_pos hw, List.dropWhile_append_of_pos hw]
  cases r with
  | nil => simp
  | cons c r => simp [hr c rfl]

theorem trim_of_forall_isSpace {s : List Char} (h : ∀ c ∈ s, isSpace c = false) : trim s = s := by
  have hreverse : ∀ c ∈ s.reverse, isSpace c = false := fun c hc => h c (List.mem_reverse.1 hc)
  rw [trim, trimLeft, dropWhile_of_forall h, dropWhileRight, dropWhile_of_forall hreverse,
    List.reverse_reverse]

end Text

end ColumnStore
