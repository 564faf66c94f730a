import Mathlib.Data.List.Forall2

/-!
# Refusals and Results

What it says of the steps of a computation that it gives a result, or that it is refused. A
result of several steps is a result of each of them; a list of steps is refused as one of
them is. Two computations that take their steps side by side end alike if each step does.

## Main definitions

* `Matched`: Two computations are refused alike, or their results are related.
* `Concludes`: What is known of the results of a computation and of the reasons to refuse it.

## Theorems

* `of_bind_eq_ok`, `of_map_eq_ok`, `of_ite_eq_ok`, `of_guard`: The steps before a result.
* `ite_error_eq_ok_iff`, `check_bind_eq_ok_iff`: Checks that do not refuse.
* `bind_pure_eq_map`: The last step of a computation.
* `of_mapM_cons_eq_ok`, `mem_of_mapM`, `getElem?_of_mapM`, `mapM_eq_pure`, `exists_mapM`: The
  results of a list of steps.
* `mapM_eq_error`: The refusal of a list of steps.
* `toOption_eq_some_iff`, `toOption_bind`, `toOption_map`, `toOption_mapM`: The result of steps,
  whatever the refusal.
* `Matched.imp`, `Matched.bind`: Steps of two computations that end alike.
* `Concludes.bind`, `Concludes.mapError`, `Concludes.mapM`: What is known of several steps.
-/

namespace ColumnStore

variable {ε α β : Type}

theorem of_bind_eq_ok {x : Except ε α} {f : α → Except ε β} {b : β} (h : x >>= f = .ok b) :
    ∃ a, x = .ok a ∧ f a = .ok b := by
  cases x with
  | error e => cases h
  | ok a => exact ⟨a, rfl, h⟩

theorem of_map_eq_ok {x : Except ε α} {f : α → β} {b : β} (h : x.map f = .ok b) :
    ∃ a, x = .ok a ∧ f a = b := by
  cases x with
  | error e => cases h
  | ok a => exact ⟨a, rfl, Except.ok.inj h⟩

/-- What is not refused is taken as it is. -/
theorem of_ite_eq_ok {c : Prop} [Decidable c] {e : ε} {a b : α}
    (h : (if c then .error e else .ok a) = Except.ok b) : ¬ c ∧ a = b := by
  by_cases hc : c
  · rw [if_pos hc] at h
    cases h
  · rw [if_neg hc] at h
    exact ⟨hc, Except.ok.inj h⟩

/-- What is not refused goes on. -/
theorem ite_error_eq_ok_iff {c : Prop} [Decidable c] {e : ε} {x : Except ε α} {a : α} :
    (if c then .error e else x) = .ok a ↔ ¬ c ∧ x = .ok a := by
  by_cases hc : c
  · rw [if_pos hc]
    exact iff_of_false nofun fun h => h.1 hc
  · rw [if_neg hc]
    exact (and_iff_right hc).symm

/-- Of two checks neither may refuse. -/
theorem check_bind_eq_ok_iff {x y : Except ε Unit} :
    (x >>= fun _ => y) = .ok () ↔ x = .ok () ∧ y = .ok () := by
  cases x with
  | error e => exact iff_of_false nofun nofun
  | ok _ => exact (and_iff_right rfl).symm

/-- A check that does not refuse is one that goes on. -/
theorem of_guard {c : Prop} [Decidable c] {e : ε} {f : PUnit → Except ε α} {a : α}
    (h : (if c then (do let r ← throw e; f r) else f ⟨⟩) = .ok a) : ¬ c ∧ f ⟨⟩ = .ok a := by
  by_cases hc : c
  · rw [if_pos hc] at h
    cases h
  · rw [if_neg hc] at h
    exact ⟨hc, h⟩

/-- What is made of a result may be made of something else that was made of it. -/
theorem bind_pure_eq_map (x : Except ε α) (f g : α → β) (h : β → β) (hfg : ∀ a, f a = h (g a)) :
    (do let a ← x; pure (f a)) = Except.map h (do let a ← x; pure (g a)) := by
  cases x with
  | error e => rfl
  | ok a => exact congrArg Except.ok (hfg a)

theorem of_mapM_cons_eq_ok {f : α → Except ε β} {x : α} {xs : List α} {ys : List β}
    (h : (x :: xs).mapM f = .ok ys) :
    ∃ z zs, f x = .ok z ∧ xs.mapM f = .ok zs ∧ ys = z :: zs := by
  rw [List.mapM_cons] at h
  rcases of_bind_eq_ok h with ⟨z, hx, hrest⟩
  rcases of_bind_eq_ok hrest with ⟨zs, hxs, hys⟩
  exact ⟨z, zs, hx, hxs, (Except.ok.inj hys).symm⟩

/-- The results for a list are those for its items. -/
theorem mem_of_mapM {f : α → Except ε β} {xs : List α} {ys : List β} (h : xs.mapM f = .ok ys) :
    (∀ y ∈ ys, ∃ x ∈ xs, f x = .ok y) ∧ ∀ x ∈ xs, ∃ y ∈ ys, f x = .ok y := by
  induction xs generalizing ys with
  | nil =>
    rw [List.mapM_nil] at h
    cases h
    simp
  | cons x xs ih =>
    rcases of_mapM_cons_eq_ok h with ⟨z, zs, hx, hxs, rfl⟩
    rcases ih hxs with ⟨hback, hforth⟩
    constructor
    · intro y hy
      rcases List.mem_cons.1 hy with rfl | hy
      · exact ⟨x, List.mem_cons_self, hx⟩
      · rcases hback y hy with ⟨x', hx', hfx⟩
        exact ⟨x', List.mem_cons_of_mem x hx', hfx⟩
    · intro x' hx'
      rcases List.mem_cons.1 hx' with rfl | hx'
      · exact ⟨z, List.mem_cons_self, hx⟩
      · rcases hforth x' hx' with ⟨y, hy, hfy⟩
        exact ⟨y, List.mem_cons_of_mem z hy, hfy⟩

/-- The results for a list correspond to its items one by one. -/
theorem forall₂_of_mapM {f : α → Except ε β} {R : α → β → Prop} {xs : List α} {ys : List β}
    (h : xs.mapM f = .ok ys) (hf : ∀ x y, f x = .ok y → R x y) : List.Forall₂ R xs ys := by
  induction xs generalizing ys with
  | nil =>
    cases h
    exact .nil
  | cons x xs ih =>
    rcases of_mapM_cons_eq_ok h with ⟨z, zs, hx, hxs, rfl⟩
    exact .cons (hf x z hx) (ih hxs)

/-- The result for an item of a list stands at its place. -/
theorem getElem?_of_mapM {f : α → Except ε β} {xs : List α} {ys : List β}
    (h : xs.mapM f = .ok ys) {i : Nat} {x : α} (hx : xs[i]? = some x) :
    ∃ y, ys[i]? = some y ∧ f x = .ok y := by
  induction xs generalizing ys i with
  | nil => cases hx
  | cons x' xs ih =>
    rcases of_mapM_cons_eq_ok h with ⟨z, zs, hz, hzs, rfl⟩
    cases i with
    | zero =>
      cases hx
      exact ⟨z, rfl, hz⟩
    | succ i => exact ih hzs hx

/-- A list is mapped to what its items are mapped to, if none of them fails. -/
theorem mapM_eq_pure {μ : Type → Type} [Monad μ] [LawfulMonad μ] {f : α → μ β}
    {g : α → β} {xs : List α} (h : ∀ x ∈ xs, f x = pure (g x)) : xs.mapM f = pure (xs.map g) := by
  induction xs with
  | nil => rfl
  | cons x xs ih =>
    rw [List.mapM_cons, h x List.mem_cons_self, ih fun y hy => h y (List.mem_cons_of_mem x hy)]
    simp

/-- If every item of a list is mapped to something, so is the list. -/
theorem exists_mapM {f : α → Except ε β} {R : α → β → Prop} {xs : List α}
    (h : ∀ x ∈ xs, ∃ y, f x = .ok y ∧ R x y) :
    ∃ ys, xs.mapM f = .ok ys ∧ List.Forall₂ R xs ys := by
  induction xs with
  | nil => exact ⟨[], rfl, .nil⟩
  | cons x xs ih =>
    rcases h x List.mem_cons_self with ⟨y, hy, hR⟩
    rcases ih fun x' hx' => h x' (List.mem_cons_of_mem x hx') with ⟨ys, hys, hRs⟩
    refine ⟨y :: ys, ?_, .cons hR hRs⟩
    rw [List.mapM_cons, hy, hys]
    rfl

/-- If an item of a list is refused, the list is refused for one of its items. -/
theorem mapM_eq_error {f : α → Except ε β} {xs : List α}
    (h : ∃ x ∈ xs, ∃ e, f x = .error e) : ∃ x ∈ xs, ∃ e, f x = .error e ∧ xs.mapM f = .error e := by
  induction xs with
  | nil =>
    rcases h with ⟨x, hx, -⟩
    cases hx
  | cons x xs ih =>
    rw [List.mapM_cons]
    cases hx : f x with
    | error e => exact ⟨x, List.mem_cons_self, e, hx, rfl⟩
    | ok y =>
      have hrest : ∃ x ∈ xs, ∃ e, f x = .error e := by
        rcases h with ⟨x', hx', e, he⟩
        rcases List.mem_cons.1 hx' with rfl | hmem
        · rw [hx] at he
          cases he
        · exact ⟨x', hmem, e, he⟩
      rcases ih hrest with ⟨x', hx', e, he, hxs⟩
      refine ⟨x', List.mem_cons_of_mem x hx', e, he, ?_⟩
      rw [hxs]
      rfl

/-! ## Results alone -/

theorem toOption_eq_some_iff {x : Except ε α} {a : α} : x.toOption = some a ↔ x = .ok a := by
  cases x with
  | error e => exact iff_of_false nofun nofun
  | ok b => exact ⟨fun h => congrArg _ (Option.some.inj h), fun h => congrArg _ (Except.ok.inj h)⟩

theorem toOption_bind (x : Except ε α) (f : α → Except ε β) :
    (x >>= f).toOption = x.toOption.bind fun a => (f a).toOption := by
  cases x with
  | error e => rfl
  | ok a => rfl

theorem toOption_map (x : Except ε α) (f : α → β) : (x.map f).toOption = x.toOption.map f := by
  cases x with
  | error e => rfl
  | ok a => rfl

theorem toOption_mapM (f : α → Except ε β) (xs : List α) :
    (xs.mapM f).toOption = xs.mapM fun x => (f x).toOption := by
  induction xs with
  | nil => rfl
  | cons x xs ih =>
    rw [List.mapM_cons, List.mapM_cons, toOption_bind]
    refine congrArg _ (funext fun y => ?_)
    rw [toOption_bind, ih]
    rfl

/-! ## Side by side -/

/-- Two computations end alike: both are refused, for the same reason, or both have results,
    which are related. -/
inductive Matched (R : α → β → Prop) : Except ε α → Except ε β → Prop
  /-- Both have results. -/
  | ok {a : α} {b : β} (h : R a b) : Matched R (.ok a) (.ok b)
  /-- Both are refused. -/
  | error (e : ε) : Matched R (.error e) (.error e)

variable {R : α → β → Prop} {α' β' ε' : Type} {x : Except ε α} {y : Except ε β}

theorem Matched.eq {x y : Except ε α} (h : Matched Eq x y) : x = y := by
  cases h with
  | ok h => rw [h]
  | error e => rfl

theorem Matched.refl (x : Except ε α) : Matched Eq x x := by
  cases x with
  | ok a => exact .ok rfl
  | error e => exact .error e

/-- What is related may be something else that holds of the results. -/
theorem Matched.imp {S : α → β → Prop} (h : Matched R x y)
    (himp : ∀ a b, x = .ok a → y = .ok b → R a b → S a b) : Matched S x y := by
  cases h with
  | ok h => exact .ok (himp _ _ rfl rfl h)
  | error e => exact .error e

theorem Matched.bind {S : α' → β' → Prop} {f : α → Except ε α'} {g : β → Except ε β'}
    (h : Matched R x y) (hnext : ∀ a b, R a b → Matched S (f a) (g b)) :
    Matched S (x >>= f) (y >>= g) := by
  cases h with
  | ok h => exact hnext _ _ h
  | error e => exact .error e

/-! ## Conclusions -/

/-- A computation ends in a result of one kind, or it is refused for a reason of one kind. -/
inductive Concludes (P : ε → Prop) (Q : α → Prop) : Except ε α → Prop
  /-- It has a result. -/
  | ok {a : α} (h : Q a) : Concludes P Q (.ok a)
  /-- It is refused. -/
  | error {e : ε} (h : P e) : Concludes P Q (.error e)

namespace Concludes

variable {P : ε → Prop} {Q : α → Prop}

theorem of_eq_error {e : ε} (h : Concludes P Q x) (hx : x = .error e) : P e := by
  cases h with
  | ok h => cases hx
  | error h =>
    cases hx
    exact h

theorem of_eq_ok {a : α} (h : Concludes P Q x) (hx : x = .ok a) : Q a := by
  cases h with
  | ok h =>
    cases hx
    exact h
  | error h => cases hx

theorem imp {S : α → Prop} (h : Concludes P Q x) (himp : ∀ a, Q a → S a) : Concludes P S x := by
  cases h with
  | ok h => exact .ok (himp _ h)
  | error h => exact .error h

theorem reason {P' : ε → Prop} (h : Concludes P Q x) (himp : ∀ e, P e → P' e) :
    Concludes P' Q x := by
  cases h with
  | ok h => exact .ok h
  | error h => exact .error (himp _ h)

theorem bind {S : β → Prop} {f : α → Except ε β} (h : Concludes P Q x)
    (hnext : ∀ a, Q a → Concludes P S (f a)) : Concludes P S (x >>= f) := by
  cases h with
  | ok h => exact hnext _ h
  | error h => exact .error h

theorem map {S : β → Prop} {f : α → β} (h : Concludes P Q x) (hf : ∀ a, Q a → S (f a)) :
    Concludes P S (x.map f) := by
  cases h with
  | ok h => exact .ok (hf _ h)
  | error h => exact .error h

theorem mapError {P' : ε' → Prop} {f : ε → ε'} (h : Concludes P Q x) (hf : ∀ e, P e → P' (f e)) :
    Concludes P' Q (x.mapError f) := by
  cases h with
  | ok h => exact .ok h
  | error h => exact .error (hf _ h)

/-- A list of steps is refused only as one of them is, and otherwise all have their results. -/
theorem mapM {S : α → β → Prop} {f : α → Except ε β} {xs : List α}
    (h : ∀ a ∈ xs, Concludes P (S a) (f a)) : Concludes P (List.Forall₂ S xs) (xs.mapM f) := by
  induction xs with
  | nil => exact .ok .nil
  | cons a xs ih =>
    rw [List.mapM_cons]
    refine (h a List.mem_cons_self).bind fun b hb => ?_
    refine (ih fun a' ha' => h a' (List.mem_cons_of_mem a ha')).bind fun bs hbs => ?_
    exact .ok (.cons hb hbs)

end Concludes

end ColumnStore
