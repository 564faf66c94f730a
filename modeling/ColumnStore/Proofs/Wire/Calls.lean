import Mathlib.Data.List.Basic

/-!
# Repeated Calls

What is left of a result is called for its next element again and again, also
when it has said that there is none. What all these calls give is described by
one list: its elements in order, and nothing ever after.

A list of results is read up to its first failure, which still belongs to what
is given.

## Main definitions

* `calls`: What some calls give, one after the other.
* `afterCalls`: What is left after them.
* `Yields`: The calls give the elements of a list and nothing after them.
* `upToFailure`: Results up to the first failure.

## Theorems

* `yields_of_step`: If each call gives the first element that remains and the
  others remain after it, all calls together give what remains.
* `sound_afterCalls`: What each call keeps is kept by all of them.
-/

namespace ColumnStore

variable {σ β ε α : Type}

/-- What some calls give, one after the other. -/
def calls (next : σ → Option β × σ) : Nat → σ → List (Option β)
  | 0, _ => []
  | n + 1, s => (next s).1 :: calls next n (next s).2

/-- What is left after some calls. -/
def afterCalls (next : σ → Option β × σ) : Nat → σ → σ
  | 0, s => s
  | n + 1, s => afterCalls next n (next s).2

/-- What each call keeps is kept by all of them. -/
theorem sound_afterCalls {next : σ → Option β × σ} (sound : σ → Prop)
    (hstep : ∀ s, sound s → sound (next s).2) (n : Nat) {s : σ} (hs : sound s) :
    sound (afterCalls next n s) := by
  induction n generalizing s with
  | zero => exact hs
  | succ n ih => exact ih (hstep s hs)

/-- A call after some others is one more call. -/
theorem next_afterCalls (next : σ → Option β × σ) (n : Nat) (s : σ) :
    (next (afterCalls next n s)).2 = afterCalls next (n + 1) s := by
  induction n generalizing s with
  | zero => rfl
  | succ n ih => exact ih (next s).2

/-- However many calls there are, they give the elements of a list in order, and
    nothing after the last one. -/
def Yields (next : σ → Option β × σ) (s : σ) (xs : List β) : Prop :=
  ∀ n, calls next n s = (List.range n).map fun i => xs[i]?

/-- If each call gives the first element that remains, and the others remain after
    it, then all calls together give what remains. -/
theorem yields_of_step {next : σ → Option β × σ} (sound : σ → Prop) (remaining : σ → List β)
    (hstep : ∀ s, sound s → (next s).1 = (remaining s).head? ∧ sound (next s).2 ∧
      remaining (next s).2 = (remaining s).tail) {s : σ} (hs : sound s) :
    Yields next s (remaining s) := by
  -- Induction on the number of calls. The first one shifts what remains by one.
  intro n
  induction n generalizing s with
  | zero => rfl
  | succ n ih =>
    rcases hstep s hs with ⟨hgiven, hsound, hleft⟩
    rw [calls, hgiven, ih hsound, hleft, List.range_succ_eq_map, List.map_cons, List.map_map,
      List.head?_eq_getElem?]
    congr 1
    apply List.map_congr_left
    intro i _
    rw [List.getElem?_tail, Function.comp_apply]

/-- Results up to the first failure. -/
def upToFailure : List (Except ε α) → List (Except ε α)
  | [] => []
  | .error e :: _ => [.error e]
  | .ok x :: xs => .ok x :: upToFailure xs

end ColumnStore
