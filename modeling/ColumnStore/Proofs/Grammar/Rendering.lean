import ColumnStore.Proofs.Grammar.Meaning
import ColumnStore.Proofs.Grammar.Regrouping
import Mathlib.Algebra.Ring.Nat

/-!
# Reading Back What Is Written

When the text of an expression means what the expression means. It is read with
its chains grouped to the left, and that is the same as long as no operator
passes one that may not be taken first. Sums pass differences, which is allowed.
Products pass quotients and remainders as well:

    a * ((b / c) * d)   is written   a * b / c * d   and read   ((a * b) / c) * d

These products, and ranges without their two bounds, are all that goes wrong.
That they do go wrong, wherever they stand, is shown by two meanings. One counts
how much is divided, which grows with every operand that passes a quotient. The
other notices whether there is a range that lacks its bounds, which no text has.

## Main definitions

* `Expr.divides`: A chain of products has a quotient or a remainder in it.
* `Expr.groupsSafely`: No product has such a chain on its right.
* `Meaning.divided`: How much is divided.
* `Meaning.unbounded`: Whether a range lacks its bounds.
* `Exceeds`: One thing divides as much as another, and more unless it is safe.

## Theorems

* `eval_graft`: An operand may pass the operators that regroup.
* `eval_regroup`: A safely grouped expression is read as what it means.
* `exceeds_regroup`: Any other one is read as dividing more.
* `means_what_is_written_iff`: The texts that mean what their expressions mean.
-/

namespace ColumnStore

open Lexical Grammar Formula

namespace Expr

/-- A quotient or a remainder stands without brackets in a chain of products. -/
def divides : Expr → Bool
  | binary .div _ _ => true
  | binary .mod _ _ => true
  | binary .mul l r => divides l || (r.continuesChain .mul && divides r)
  | _ => false

mutual

/-- No product has a chain on its right that is written without brackets and has a
    quotient or a remainder in it. -/
def groupsSafely : Expr → Bool
  | literal _ => true
  | field _ => true
  | raw _ => true
  | list items => listGroupsSafely items
  | call _ arguments => listGroupsSafely arguments
  | unary _ e => groupsSafely e
  | binary op l r =>
    !(op = .mul && r.continuesChain .mul && r.divides) && (groupsSafely l && groupsSafely r)

/-- No product in some expressions has such a chain on its right. -/
def listGroupsSafely : List Expr → Bool
  | [] => true
  | e :: es => groupsSafely e && listGroupsSafely es

end

theorem listGroupsSafely_eq_all (es : List Expr) : listGroupsSafely es = es.all groupsSafely := by
  induction es with
  | nil => rfl
  | cons e es ih => rw [listGroupsSafely, ih, List.all_cons]

end Expr

namespace Grammar

/-- A quotient or a remainder. -/
def isQuotient (op : BinaryOp) : Bool :=
  op = .div || op = .mod

/-! ## Chains with a quotient -/

theorem divides_of_needsBrackets {e : Expr} (h : e.needsBrackets 6 = true) :
    e.divides = false := by
  cases e with
  | binary op l r => cases op <;> first | rfl | cases h
  | _ => rfl

/-- The chain of a regrouped expression has a quotient in it if the expression has. -/
theorem any_isQuotient_spine {e : Expr} (h : e.bounded = true) :
    (spine 6 e.formula.regroup).any isQuotient = e.divides := by
  induction e using Expr.mem_induction with
  | literal v =>
      rw [Expr.formula, v.regroup_formula, spine_of_conforms v.conforms_formula]
      rfl
  | field name => rfl
  | raw s => rfl
  | list items _ => rfl
  | call f arguments _ => rfl
  | unary op e _ => rfl
  | range x lo hi _ _ _ => rfl
  | binary op l r hranged hl hr =>
      rw [Expr.bounded_binary hranged, Bool.and_eq_true, Bool.and_eq_true] at h
      rcases h with ⟨-, hboundl, hboundr⟩
      rw [Expr.formula_binary hranged, regroup, regroup_bracketIf, regroup_bracketIf]
      by_cases hop : op.precedence = 6
      · -- The chain is that of the right side, the operator, and that of the left side.
        have hleft : (spine 6 (bracketIf (l.needsBrackets 6) l.formula.regroup)).any isQuotient
            = l.divides := by
          by_cases hwanted : l.needsBrackets 6 = true
          · rw [hwanted, divides_of_needsBrackets hwanted]
            rfl
          · rw [Bool.not_eq_true] at hwanted
            rw [hwanted]
            exact hl hboundl
        have hright : (spine 6 (bracketIf (r.needsBracketsRight op) r.formula.regroup)).any isQuotient
            = (r.continuesChain op && r.divides) := by
          by_cases hchain : r.continuesChain op = true
          · rw [hchain, Expr.needsBracketsRight_of_continuesChain hchain, Bool.true_and]
            exact hr hboundr
          · rcases Expr.conforms_right (Expr.conforms_regroup hboundr) with hnext | ⟨hnot, -, -⟩
            · rw [hop] at hnext
              rw [Bool.not_eq_true] at hchain
              rw [spine_of_conforms hnext, hchain]
              rfl
            · exact absurd hnot hchain
        rw [← hop, spine_graft, hop, List.any_append, List.any_cons, hleft, hright]
        cases op <;> first
          | exact absurd hop (by decide)
          | simp [isQuotient, Expr.divides, Bool.or_comm]
      · rw [spine_graft_of_ne hop]
        cases op <;> first | rfl | exact absurd rfl hop

/-- The operands of a chain on the right are passed by a quotient exactly if the chain
    is one of products that has one. -/
theorem misgroups_eq_any {op : BinaryOp} {r : Expr} (hbounded : r.bounded = true)
    (hchain : r.continuesChain op = true) :
    (op = .mul && r.continuesChain .mul && r.divides)
      = (spine op.precedence r.formula.regroup).any isQuotient := by
  by_cases hmul : op = .mul
  · subst hmul
    have hany := any_isQuotient_spine hbounded
    rw [hchain, ← hany]
    rfl
  · have hnone : (spine op.precedence r.formula.regroup).any isQuotient = false := by
      refine List.any_eq_false.2 fun o ho => ?_
      have hassoc := Expr.associative_of_continuesChain hchain
      have hprec := precedence_of_mem_spine ho
      -- No other associative operator is as strong as a quotient.
      cases op <;> cases hassoc <;> cases o <;> first
        | decide
        | exact absurd hprec (by decide)
        | exact absurd rfl hmul
    rw [hnone]
    simp [hmul]

/-! ## Safe regrouping -/

section

variable {D : Type} (M : Meaning D)

/-- An operand passes the operators of a chain that regroup with its own. -/
theorem Meaning.eval_graft {op : BinaryOp} {y : Formula}
    (h : ∀ o ∈ spine op.precedence y, regroups op o = true) (x : Formula) :
    M.eval (graft op x y) = M.binary op (M.eval x) (M.eval y) := by
  induction y using graft.induct op with
  | case1 o l r ho ih =>
      rw [spine, if_pos ho] at h
      have ho' := h o List.mem_cons_self
      have hl := ih fun p hp => h p (List.mem_cons_of_mem o hp)
      rw [graft, if_pos ho, eval, hl, eval, M.binary_regroup ho']
  | case2 o l r ho => rw [graft, if_neg ho, eval]
  | case3 y hy =>
      rw [graft, eval]
      exact hy

/-- An associative operator regroups with all of its strength but the quotients. -/
theorem regroups_of_precedence {op o : BinaryOp} (hop : op.associative = true)
    (ho : o.precedence = op.precedence) (hquotient : isQuotient o = false) :
    regroups op o = true := by
  cases op <;> cases hop <;> cases o <;> first
    | rfl
    | exact absurd ho (by decide)
    | exact absurd hquotient (by decide)

/-- Brackets around an operand after its operator do not change the value. -/
theorem Meaning.eval_regroup_operandFormula (op : UnaryOp) (e : Expr) (x : Formula) :
    M.eval (e.operandFormula op x).regroup = M.eval x.regroup := by
  unfold Expr.operandFormula
  cases op with
  | not =>
      simp only
      rw [regroup_bracketIf, eval_bracketIf]
  | neg =>
      simp only
      rw [regroup_bracketIf, regroup_bracketIf, eval_bracketIf, eval_bracketIf]

theorem of_groupsSafely_range {x lo hi : Expr}
    (h : (Expr.binary .between x (.list [lo, hi])).groupsSafely = true) :
    x.groupsSafely = true ∧ lo.groupsSafely = true ∧ hi.groupsSafely = true := by
  simpa [Expr.groupsSafely, Expr.listGroupsSafely] using h

/-- A safely grouped expression is read as what it means. -/
theorem Meaning.eval_regroup {e : Expr} (hbounded : e.bounded = true)
    (hsafe : e.groupsSafely = true) : M.eval e.formula.regroup = M.expr e := by
  induction e using Expr.mem_induction with
  | literal v =>
      rw [Expr.formula, v.regroup_formula]
      exact M.eval_formula_value v
  | field name => rfl
  | raw s => rfl
  | list items ih =>
      rw [Expr.bounded, Expr.listBounded_eq_all, List.all_eq_true] at hbounded
      rw [Expr.groupsSafely, Expr.listGroupsSafely_eq_all, List.all_eq_true] at hsafe
      rw [Expr.formula, expr, regroup, eval, listEval_eq_map, listRegroup_eq_map,
        Expr.listFormula_eq_map, listExpr_eq_map, List.map_map, List.map_map]
      exact congrArg M.list (List.map_congr_left fun e he => ih e he (hbounded e he) (hsafe e he))
  | call f arguments ih =>
      rw [Expr.bounded, Expr.listBounded_eq_all, List.all_eq_true] at hbounded
      rw [Expr.groupsSafely, Expr.listGroupsSafely_eq_all, List.all_eq_true] at hsafe
      rw [Expr.formula, expr, regroup, eval, listEval_eq_map, listRegroup_eq_map,
        Expr.listFormula_eq_map, listExpr_eq_map, List.map_map, List.map_map]
      exact congrArg (M.call _)
        (List.map_congr_left fun e he => ih e he (hbounded e he) (hsafe e he))
  | unary op e ih =>
      rw [Expr.formula, regroup, eval, eval_regroup_operandFormula, expr]
      exact congrArg _ (ih hbounded hsafe)
  | range x lo hi hx hlo hhi =>
      rw [Expr.bounded, Bool.and_eq_true, Bool.and_eq_true] at hbounded
      rcases of_groupsSafely_range hsafe with ⟨hsafex, hsafelo, hsafehi⟩
      rw [Expr.formula, regroup, eval, regroup_bracketIf, regroup_bracketIf, regroup_bracketIf,
        eval_bracketIf, eval_bracketIf, eval_bracketIf, hx hbounded.1 hsafex,
        hlo hbounded.2.1 hsafelo, hhi hbounded.2.2 hsafehi, expr]
  | binary op l r hranged hl hr =>
      rw [Expr.bounded_binary hranged, Bool.and_eq_true, Bool.and_eq_true] at hbounded
      rcases hbounded with ⟨-, hboundl, hboundr⟩
      rw [Expr.groupsSafely, Bool.and_eq_true, Bool.and_eq_true, Bool.not_eq_true'] at hsafe
      rcases hsafe with ⟨hpass, hsafel, hsafer⟩
      have hleft := hl hboundl hsafel
      have hright := hr hboundr hsafer
      -- Either the right side is an operand of the next level, and nothing is regrouped,
      -- or it is a chain that the left side and the operator pass.
      rw [Expr.formula_binary hranged, regroup, regroup_bracketIf, regroup_bracketIf,
        expr_binary M hranged]
      rcases Expr.conforms_right (Expr.conforms_regroup hboundr) with hnext | ⟨hchain, hno, -⟩
      · rw [graft_of_conforms hnext, eval, eval_bracketIf, eval_bracketIf, hleft, hright]
      · have hpasses : ∀ o ∈ spine op.precedence r.formula.regroup, regroups op o = true := by
          rw [misgroups_eq_any hboundr hchain] at hpass
          exact fun o ho => regroups_of_precedence (Expr.associative_of_continuesChain hchain)
            (precedence_of_mem_spine ho) (Bool.eq_false_iff.2 (List.any_eq_false.1 hpass o ho))
        rw [hno]
        exact (M.eval_graft hpasses _).trans (by rw [eval_bracketIf, hleft, hright])

end

/-! ## Ranges that lack a bound -/

/-- Whether there is a range that lacks its bounds. -/
def Meaning.unbounded : Meaning Bool where
  word _ := false
  text _ := false
  name _ := false
  raw _ := false
  call _ xs := xs.any id
  array xs := xs.any id
  list xs := xs.any id
  unary _ x := x
  binary op x y := op = .between || (x || y)
  range x lo hi := x || (lo || hi)
  list_one x := by rw [List.any_cons, List.any_nil, Bool.or_false, id]
  or_or x y z := (Bool.or_assoc x y z).symm
  and_and x y z := (Bool.or_assoc x y z).symm
  add_add x y z := (Bool.or_assoc x y z).symm
  add_sub x y z := (Bool.or_assoc x y z).symm
  mul_mul x y z := (Bool.or_assoc x y z).symm

/-- No formula of the grammar has such a range. -/
theorem unbounded_of_conforms {k : Nat} {x : Formula} (h : Conforms k x) :
    Meaning.unbounded.eval x = false := by
  have hitems : ∀ {xs : List Formula}, (∀ x ∈ xs, Meaning.unbounded.eval x = false) →
      (Meaning.unbounded.listEval xs).any id = false := by
    intro xs hxs
    rw [Meaning.listEval_eq_map, List.any_map]
    exact List.any_eq_false.2 fun x hx => by simp [hxs x hx]
  induction h with
  | next _ _ ih => exact ih
  | unary _ _ ih => exact ih
  | binary _ hne _ _ ihl ihr =>
      rw [Meaning.eval, ihl, ihr]
      simp [Meaning.unbounded, hne]
  | range _ _ _ ihx ihlo ihhi =>
      rw [Meaning.eval, ihx, ihlo, ihhi]
      rfl
  | call f _ ih => exact hitems ih
  | array _ ih => exact hitems ih
  | list _ ih => exact hitems ih
  | _ => rfl

/-- It is noticed in an expression that has one. -/
theorem unbounded_expr (e : Expr) : Meaning.unbounded.expr e = !e.bounded := by
  have hitems : ∀ {es : List Expr}, (∀ e ∈ es, Meaning.unbounded.expr e = !e.bounded) →
      (Meaning.unbounded.listExpr es).any id = !Expr.listBounded es := by
    intro es hes
    induction es with
    | nil => rfl
    | cons e es ih =>
        rcases List.forall_mem_cons.1 hes with ⟨he, hes⟩
        rw [Meaning.listExpr, List.any_cons, ih hes, Expr.listBounded, Bool.not_and, ← he]
        rfl
  induction e using Expr.mem_induction with
  | literal v =>
      rw [Meaning.expr, ← Meaning.eval_formula_value, unbounded_of_conforms v.conforms_formula]
      rfl
  | field name => rfl
  | raw s => rfl
  | list items ih => exact hitems ih
  | call f arguments ih => exact hitems ih
  | unary op e ih => exact ih
  | range x lo hi hx hlo hhi =>
      rw [Meaning.expr, Expr.bounded, hx, hlo, hhi, Bool.not_and, Bool.not_and]
      rfl
  | binary op l r hranged hl hr =>
      rw [Meaning.expr_binary _ hranged, Expr.bounded_binary hranged, hl, hr, Bool.not_and,
        Bool.not_and]
      cases op <;> rfl

/-! ## Products that pass a quotient -/

/-- Sizes and amounts of the parts of a whole, added up. -/
def total (xs : List (Nat × Nat)) : Nat × Nat :=
  ((xs.map Prod.fst).sum, (xs.map Prod.snd).sum)

/-- How many operators there are, and how much is divided: for every quotient and
    remainder the size of its left operand. -/
def Meaning.divided : Meaning (Nat × Nat) where
  word _ := (0, 0)
  text _ := (0, 0)
  name _ := (0, 0)
  raw _ := (0, 0)
  call _ xs := total xs
  array xs := total xs
  list xs := total xs
  unary _ x := x
  binary op x y := (x.1 + y.1 + 1, x.2 + y.2 + if isQuotient op then x.1 + 1 else 0)
  range x lo hi := total [x, lo, hi]
  list_one x := by simp [total]
  or_or x y z := by ext <;> simp [isQuotient] <;> omega
  and_and x y z := by ext <;> simp [isQuotient] <;> omega
  add_add x y z := by ext <;> simp [isQuotient] <;> omega
  add_sub x y z := by ext <;> simp [isQuotient] <;> omega
  mul_mul x y z := by ext <;> simp [isQuotient] <;> omega

/-- An operand that passes a chain is divided by every quotient in it. -/
theorem divided_graft {op : BinaryOp} (hop : isQuotient op = false) (x y : Formula) :
    Meaning.divided.eval (graft op x y)
      = ((Meaning.divided.eval x).1 + (Meaning.divided.eval y).1 + 1,
         (Meaning.divided.eval x).2 + (Meaning.divided.eval y).2
           + ((Meaning.divided.eval x).1 + 1) * (spine op.precedence y).countP isQuotient) := by
  -- Induction down the left side of the chain. Each operator there has the operand in
  -- its left side then, and a quotient divides it.
  induction y using graft.induct op with
  | case1 o l r ho ih =>
      rw [graft, if_pos ho, Meaning.eval, ih, Meaning.eval, spine, if_pos ho, List.countP_cons]
      cases hquotient : isQuotient o
      · ext
        · simp only [Meaning.divided]
          omega
        · simp only [Meaning.divided, hquotient, Bool.false_eq_true, if_false, Nat.add_zero]
          omega
      · ext
        · simp only [Meaning.divided]
          omega
        · simp only [Meaning.divided, hquotient, if_true, Nat.mul_add, Nat.mul_one]
          omega
  | case2 o l r ho =>
      rw [graft, if_neg ho, Meaning.eval, spine, if_neg ho]
      simp [Meaning.divided, hop]
  | case3 y hy =>
      have hempty : spine op.precedence y = [] := by
        rw [spine]
        exact hy
      rw [graft, Meaning.eval, hempty]
      · simp [Meaning.divided, hop]
      · exact hy

/-- One thing has the size of another and divides more, or the same if it is safe. -/
def Exceeds (safe : Bool) (x y : Nat × Nat) : Prop :=
  ∃ k, x = (y.1, y.2 + k) ∧ (k = 0 → safe = true)

theorem Exceeds.refl (x : Nat × Nat) : Exceeds true x x :=
  ⟨0, rfl, fun _ => rfl⟩

theorem exceeds_total {es : List Expr}
    (h : ∀ e ∈ es, Exceeds e.groupsSafely (Meaning.divided.eval e.formula.regroup)
      (Meaning.divided.expr e)) :
    Exceeds (Expr.listGroupsSafely es)
      (total (Meaning.divided.listEval (listRegroup (Expr.listFormula es))))
      (total (Meaning.divided.listExpr es)) := by
  induction es with
  | nil => exact .refl _
  | cons e es ih =>
      rcases List.forall_mem_cons.1 h with ⟨he, hes⟩
      rcases he with ⟨j, hj, hsafe⟩
      rcases ih hes with ⟨k, hk, hsafes⟩
      refine ⟨j + k, ?_, fun hzero => ?_⟩
      · rw [total, total, Prod.mk.injEq] at hk
        rw [Expr.listFormula, listRegroup, Meaning.listEval, Meaning.listExpr, hj, total, total,
          List.map_cons, List.map_cons, List.map_cons, List.map_cons, List.sum_cons, List.sum_cons,
          List.sum_cons, List.sum_cons, hk.1, hk.2]
        ext
        · rfl
        · simp only
          omega
      · rw [Expr.listGroupsSafely, hsafe (by omega), hsafes (by omega)]
        rfl

/-- Operands that stand side by side in what is read. -/
theorem exceeds_binary (op : BinaryOp) {safel safer : Bool} {x y x' y' : Nat × Nat}
    (hl : Exceeds safel x' x) (hr : Exceeds safer y' y) :
    Exceeds (safel && safer) (Meaning.divided.binary op x' y') (Meaning.divided.binary op x y) := by
  rcases hl with ⟨j, rfl, hsafel⟩
  rcases hr with ⟨k, rfl, hsafer⟩
  refine ⟨j + k, ?_, fun hzero => ?_⟩
  · ext
    · rfl
    · simp only [Meaning.divided]
      omega
  · rw [hsafel (by omega), hsafer (by omega)]
    rfl

/-- An operand that is grafted onto a chain. -/
theorem exceeds_graft {op : BinaryOp} (hop : isQuotient op = false) {safel safer : Bool}
    {x y : Formula} {a b : Nat × Nat} (hl : Exceeds safel (Meaning.divided.eval x) a)
    (hr : Exceeds safer (Meaning.divided.eval y) b) :
    Exceeds (!(spine op.precedence y).any isQuotient && (safel && safer))
      (Meaning.divided.eval (graft op x y)) (Meaning.divided.binary op a b) := by
  rcases hl with ⟨j, hj, hsafel⟩
  rcases hr with ⟨k, hk, hsafer⟩
  rw [divided_graft hop, hj, hk]
  refine ⟨j + k + (a.1 + 1) * (spine op.precedence y).countP isQuotient, ?_, fun hzero => ?_⟩
  · ext
    · rfl
    · simp only [Meaning.divided, hop, Bool.false_eq_true, if_false]
      omega
  · -- Nothing more is divided only if there is no quotient to divide it.
    have hproduct : (a.1 + 1) * (spine op.precedence y).countP isQuotient = 0 := by
      omega
    have hnone := (Nat.mul_eq_zero.1 hproduct).resolve_left (Nat.succ_ne_zero _)
    rw [hsafel (by omega), hsafer (by omega),
      List.any_eq_false.2 (List.countP_eq_zero.1 hnone)]
    rfl

/-- What is read divides as much as what is meant, and more unless it is grouped
    safely. -/
theorem exceeds_regroup {e : Expr} (hbounded : e.bounded = true) :
    Exceeds e.groupsSafely (Meaning.divided.eval e.formula.regroup) (Meaning.divided.expr e) := by
  induction e using Expr.mem_induction with
  | literal v =>
      rw [Expr.formula, v.regroup_formula, Meaning.eval_formula_value]
      exact .refl _
  | field name => exact .refl _
  | raw s => exact .refl _
  | list items ih =>
      rw [Expr.bounded, Expr.listBounded_eq_all, List.all_eq_true] at hbounded
      exact exceeds_total fun e he => ih e he (hbounded e he)
  | call f arguments ih =>
      rw [Expr.bounded, Expr.listBounded_eq_all, List.all_eq_true] at hbounded
      exact exceeds_total fun e he => ih e he (hbounded e he)
  | unary op e ih =>
      rw [Expr.formula, regroup, Meaning.eval, Meaning.eval_regroup_operandFormula, Meaning.expr]
      exact ih hbounded
  | range x lo hi hx hlo hhi =>
      rw [Expr.bounded, Bool.and_eq_true, Bool.and_eq_true] at hbounded
      rcases hx hbounded.1 with ⟨j, hj, hsafex⟩
      rcases hlo hbounded.2.1 with ⟨k, hk, hsafelo⟩
      rcases hhi hbounded.2.2 with ⟨l, hl, hsafehi⟩
      rw [Expr.formula, regroup, regroup_bracketIf, regroup_bracketIf, regroup_bracketIf,
        Meaning.eval, Meaning.eval_bracketIf, Meaning.eval_bracketIf, Meaning.eval_bracketIf,
        hj, hk, hl, Meaning.expr]
      refine ⟨j + k + l, ?_, fun hzero => ?_⟩
      · ext
        · rfl
        · simp only [Meaning.divided, total, List.map_cons, List.map_nil, List.sum_cons,
            List.sum_nil]
          omega
      · simp [Expr.groupsSafely, Expr.listGroupsSafely, hsafex (by omega), hsafelo (by omega),
          hsafehi (by omega)]
  | binary op l r hranged hl hr =>
      rw [Expr.bounded_binary hranged, Bool.and_eq_true, Bool.and_eq_true] at hbounded
      rcases hbounded with ⟨-, hboundl, hboundr⟩
      have hleft := hl hboundl
      rw [← Meaning.eval_bracketIf _ (l.needsBrackets op.precedence)] at hleft
      rw [Expr.formula_binary hranged, regroup, regroup_bracketIf, regroup_bracketIf,
        Meaning.expr_binary _ hranged, Expr.groupsSafely]
      by_cases hchain : r.continuesChain op = true
      · -- The chain is passed, and an operator that regroups is no quotient itself.
        have hquotient : isQuotient op = false := by
          have hassoc := Expr.associative_of_continuesChain hchain
          cases op <;> first | rfl | cases hassoc
        rw [misgroups_eq_any hboundr hchain, Expr.needsBracketsRight_of_continuesChain hchain]
        exact exceeds_graft hquotient hleft (hr hboundr)
      · -- Nothing is passed, so that the sides stand where they are meant.
        have hpass : (op = .mul && r.continuesChain .mul && r.divides) = false := by
          by_cases hmul : op = .mul
          · subst hmul
            simp [hchain]
          · simp [hmul]
        rcases Expr.conforms_right (Expr.conforms_regroup hboundr) with hnext | ⟨hchain', -, -⟩
        · have hright := hr hboundr
          rw [← Meaning.eval_bracketIf _ (r.needsBracketsRight op)] at hright
          rw [hpass, graft_of_conforms hnext, Bool.not_false, Bool.true_and]
          exact exceeds_binary op hleft hright
        · exact absurd hchain' hchain

/-! ## The texts that are read as what they mean -/

/-- The text of an expression can be read, and means what the expression means, exactly
    if the ranges of the expression have their two bounds and no product has a chain
    with a quotient or a remainder in it, without brackets, on its right. -/
theorem means_what_is_written_iff (e : Expr) :
    e.symbols.flatMap Symbol.text = e.sql ∧
      ((∃ x, read? e.symbols = some x ∧ ∀ (D : Type) (M : Meaning D), M.eval x = M.expr e) ↔
        e.bounded = true ∧ e.groupsSafely = true) := by
  refine ⟨e.text_symbols, fun ⟨x, hread, hmeans⟩ => ?_, fun ⟨hbounded, hsafe⟩ => ?_⟩
  · have hconforms : Conforms 0 x := by
      rw [Expr.read?_symbols, readTokens?_eq_some_iff] at hread
      exact hread.1
    -- What is read has all its bounds, so the expression has them.
    have hbounded : e.bounded = true := by
      have hnone := hmeans Bool .unbounded
      rw [unbounded_of_conforms hconforms, unbounded_expr] at hnone
      simpa using hnone.symm
    refine ⟨hbounded, ?_⟩
    rw [Expr.read?_symbols_of_bounded hbounded, Option.some.injEq] at hread
    rcases exceeds_regroup hbounded with ⟨k, hk, hsafe⟩
    -- It divides as much as the expression, so nothing passes a quotient.
    rw [hread, hmeans] at hk
    refine hsafe ?_
    have hamount := congrArg Prod.snd hk
    simp only at hamount
    omega
  · exact ⟨_, Expr.read?_symbols_of_bounded hbounded, fun D M => M.eval_regroup hbounded hsafe⟩

/-- A product with a product on its right that begins with a quotient. -/
def Expr.quotientInProduct : Expr :=
  .binary .mul (.field "a")
    (.binary .mul (.binary .div (.field "b") (.field "c")) (.field "d"))

/-- A product whose right side begins with a quotient is read as another number: with
    two for the first factor and for the divisor and one for the others, as one and
    not as zero. -/
theorem quotient_in_product_is_misread :
    Expr.quotientInProduct.sql = "\x60a\x60 * \x60b\x60 / \x60c\x60 * \x60d\x60".toList ∧
      ∃ x, read? Expr.quotientInProduct.symbols = some x ∧ ∃ σ : Assignment,
        σ.integers.eval x = 1 ∧ σ.integers.expr Expr.quotientInProduct = 0 := by
  refine ⟨by decide, _, Expr.read?_symbols_of_bounded rfl,
    ⟨fun _ => 0, fun _ => 0, fun name => if name = ['a'] ∨ name = ['c'] then 2 else 1, fun _ => 0,
      fun _ _ => 0, fun _ => 0, fun _ => 0, fun _ _ _ => 0⟩, ?_, ?_⟩
  · decide
  · decide

end Grammar

end ColumnStore
