import ColumnStore.Number.Hex
import Mathlib.Algebra.Ring.Nat

/-!
# Reading Hexadecimal Digits Back

The hexadecimal digits of a number denote it, whether they fill a width or not.

## Theorems

* `ofHexDigits?_hexPadded`: The lowest digits of a number denote its remainder.
* `ofHexDigits?_toDigits`: The digits of a number denote it.
* `isSome_hexValue?_of_mem_toDigits`: They are hexadecimal digits.
-/

namespace ColumnStore

namespace Number

theorem hexValue?_digitChar {d : Nat} (h : d < 16) : hexValue? (Nat.digitChar d) = some d := by
  have hall : ∀ d < 16, hexValue? (Nat.digitChar d) = some d := by decide
  exact hall d h

/-- One more digit moves the number before it by a place. -/
theorem ofHexDigits?_append_digitChar {s : List Char} {n d : Nat} (hs : ofHexDigits? s = some n)
    (hd : d < 16) : ofHexDigits? (s ++ [Nat.digitChar d]) = some (16 * n + d) := by
  rw [ofHexDigits?] at hs
  rw [ofHexDigits?, List.foldlM_append, hs]
  simp [hexValue?_digitChar hd]

/-- The lowest digits of a number denote what is left of it when the others are cut
    off. -/
theorem ofHexDigits?_hexPadded (width n : Nat) :
    ofHexDigits? (hexPadded width n) = some (n % 16 ^ width) := by
  induction width generalizing n with
  | zero =>
    rw [Nat.pow_zero, Nat.mod_one]
    rfl
  | succ width ih =>
    rw [hexPadded, ofHexDigits?_append_digitChar (ih (n / 16)) (Nat.mod_lt n (by decide)),
      Nat.pow_succ', Nat.mod_mul, Nat.add_comm]

theorem length_hexPadded (width n : Nat) : (hexPadded width n).length = width := by
  induction width generalizing n with
  | zero => rfl
  | succ width ih => rw [hexPadded, List.length_append, ih, List.length_singleton]

theorem ofHexDigits?_toDigits (n : Nat) : ofHexDigits? (Nat.toDigits 16 n) = some n := by
  -- The last digit is the remainder, and those before it are the ones of the quotient.
  induction n using Nat.strongRecOn with
  | _ n ih =>
    rw [Nat.toDigits_eq_if (by decide)]
    by_cases h : n < 16
    · have hone := ofHexDigits?_append_digitChar (s := []) (n := 0) rfl h
      rw [List.nil_append, Nat.mul_zero, Nat.zero_add] at hone
      rw [if_pos h, hone]
    · have hdigits := ofHexDigits?_append_digitChar (ih (n / 16) (by omega))
        (Nat.mod_lt n (by decide))
      rw [Nat.div_add_mod] at hdigits
      rw [if_neg h, hdigits]

theorem isSome_hexValue?_of_mem_toDigits {n : Nat} {c : Char} (h : c ∈ Nat.toDigits 16 n) :
    (hexValue? c).isSome = true := by
  induction n using Nat.strongRecOn with
  | _ n ih =>
    have hlast {d : Nat} (hd : d < 16) (hc : c ∈ [Nat.digitChar d]) :
        (hexValue? c).isSome = true := by
      rw [List.mem_singleton.1 hc, hexValue?_digitChar hd]
      rfl
    rw [Nat.toDigits_eq_if (by decide)] at h
    by_cases hn : n < 16
    · rw [if_pos hn] at h
      exact hlast hn h
    · rw [if_neg hn] at h
      rcases List.mem_append.1 h with h | h
      · exact ih (n / 16) (by omega) h
      · exact hlast (Nat.mod_lt n (by decide)) h

end Number

end ColumnStore
