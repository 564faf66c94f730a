/-!
# Rounding Half to Even

The nearest whole number to a quotient. Of two that are equally near, the even
one is taken, so that rounding has no drift in either direction. Both the
binary numbers and the decimals of this library round this way.

## Main definitions

* `halfEven`: A quotient rounded to the nearest whole number.

## Theorems

* `halfEven_le`: Rounding a quotient by two or more never exceeds the dividend.
-/

namespace ColumnStore

namespace Number

/-- A quotient rounded to the nearest whole number, a half to the even one. -/
def halfEven (num den : Nat) : Nat :=
  let q := num / den
  let r := num % den
  if 2 * r < den then q
  else if den < 2 * r then q + 1
  else if q % 2 = 0 then q else q + 1

/-- Rounding a quotient by two or more never exceeds the dividend. -/
theorem halfEven_le {num den : Nat} (h : 2 ≤ den) : halfEven num den ≤ num := by
  have hdiv := Nat.div_add_mod num den
  have hmul : 2 * (num / den) ≤ den * (num / den) := Nat.mul_le_mul_right _ h
  simp only [halfEven]
  repeat' split
  all_goals omega

end Number

end ColumnStore
