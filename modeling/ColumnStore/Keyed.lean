/-!
# Entries in Key Order

Lists of entries under text keys, in ascending order of the keys and with one
entry for each key. The order of keys is that of their code points.

## Main definitions

* `Keyed.insert`: Adds an entry, or replaces the one under the same key.
* `Keyed.get?`: The entry under a key.

## Theorems

* `get?_insert`: What is found after an entry was added.
-/

namespace ColumnStore

namespace Keyed

variable {α : Type}

/-- Adds an entry in its place. An entry under the same key is replaced. -/
def insert (key : String) (x : α) : List (String × α) → List (String × α)
  | [] => [(key, x)]
  | (k, y) :: r =>
    if key = k then (key, x) :: r
    else if key < k then (key, x) :: (k, y) :: r
    else (k, y) :: insert key x r

/-- The entry under a key. -/
def get? (key : String) (entries : List (String × α)) : Option α :=
  (entries.find? fun e => e.1 = key).map (·.2)

/-- What is found after an entry was added: that entry under its key, and what
    was there before under any other. -/
theorem get?_insert (key other : String) (x : α) (entries : List (String × α)) :
    get? other (insert key x entries) = if other = key then some x else get? other entries := by
  induction entries with
  | nil => by_cases h : other = key <;> simp [insert, get?, h, eq_comm]
  | cons e r ih =>
    obtain ⟨k, y⟩ := e
    simp only [get?] at ih
    -- The new entry replaces the first one, stands before it, or goes behind it.
    by_cases h : key = k
    · subst h
      by_cases ho : other = key
      · simp [insert, get?, ho]
      · simp [insert, get?, ho, Ne.symm ho]
    · by_cases hlt : key < k
      · by_cases ho : other = key
        · simp [insert, get?, h, hlt, ho]
        · simp [insert, get?, h, hlt, ho, Ne.symm ho]
      · by_cases hk : k = other
        · subst hk
          simp [insert, get?, h, hlt, Ne.symm h]
        · simp [insert, get?, h, hlt, hk, ih]

end Keyed

end ColumnStore
