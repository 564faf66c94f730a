import ColumnStore.Failure

/-!
# Pools

A pool hands out a fixed number of permits, one for each request that is under
way. Who asks when all permits are out waits for as long as the pool allows, and
is then refused.

## Main definitions

* `Pool`: The number of permits, and how many of them are out.
* `Pool.acquire`, `Pool.release`: Takes a permit, and gives one back.
* `Pool.available`: The number of permits that can be taken.

## Theorems

* `Pool.of_acquire_eq_ok`: A permit is taken while there is one.
* `Pool.of_acquire_eq_error`: A request is refused while all permits are out.
-/

namespace ColumnStore

/-- A number of permits, some of which are out. -/
structure Pool where
  /-- The number of permits. -/
  capacity : Nat
  /-- How many milliseconds a request may wait for a permit. -/
  patience : Nat
  /-- The number of permits that are out. -/
  inUse : Nat := 0
  /-- No more permits are out than there are. -/
  inUse_le : inUse ≤ capacity := by omega

namespace Pool

/-- The number of permits that can be taken. -/
def available (p : Pool) : Nat :=
  p.capacity - p.inUse

/-- Takes a permit, or is refused after waiting in vain. -/
def acquire (p : Pool) : Except Failure Pool :=
  if h : p.inUse < p.capacity then .ok ⟨p.capacity, p.patience, p.inUse + 1, h⟩
  else .error (.transport (.noConnection p.patience) none)

/-- Gives a permit back. -/
def release (p : Pool) : Pool where
  capacity := p.capacity
  patience := p.patience
  inUse := p.inUse - 1
  inUse_le := Nat.le_trans (Nat.sub_le _ _) p.inUse_le

/-- A permit is taken while there is one, and is out after that. -/
theorem of_acquire_eq_ok {p q : Pool} (h : p.acquire = .ok q) :
    p.inUse < p.capacity ∧ q.capacity = p.capacity ∧ q.inUse = p.inUse + 1 := by
  unfold acquire at h
  by_cases hlt : p.inUse < p.capacity
  · rw [dif_pos hlt] at h
    rw [← Except.ok.inj h]
    exact ⟨hlt, rfl, rfl⟩
  · rw [dif_neg hlt] at h
    cases h

/-- A request is refused while all permits are out. -/
theorem of_acquire_eq_error {p : Pool} {e : Failure} (h : p.acquire = .error e) :
    p.inUse = p.capacity := by
  unfold acquire at h
  by_cases hlt : p.inUse < p.capacity
  · rw [dif_pos hlt] at h
    cases h
  · have hle := p.inUse_le
    omega

end Pool

end ColumnStore
