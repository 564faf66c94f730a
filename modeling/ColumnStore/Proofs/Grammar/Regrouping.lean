import ColumnStore.Proofs.Grammar.Reading

/-!
# Regrouping

The text of an expression leaves brackets out in chains of one operator, so a
chain that the tree groups to the right is read grouped to the left. `regroup`
says what is read instead of the shape of the tree. It hangs the left operand of
an operator under the first operand of the chain to its right.

On the way it passes every operator of that chain, and not all of them are the
one whose chain it is: a difference stands among sums, a quotient or a remainder
among products. `spine` lists the operators that are passed.

## Main definitions

* `Formula.graft`: An operand put before a chain.
* `Formula.regroup`: A formula with its chains grouped to the left.
* `Formula.spine`: The operators of a chain.
* `Expr.bounded`: Every range of an expression has two bounds.
* `Expr.level`: The level at which the text of an expression is read.

## Theorems

* `tokens_regroup`: Regrouping leaves the tokens as they are.
* `conforms_regroup`: A regrouped expression follows the grammar.
* `read?_symbols_of_bounded`: The text of an expression is read as its regrouped formula.
-/

namespace ColumnStore

namespace Grammar

namespace Formula

/-- An operand and an operator put before the first operand of a chain. -/
def graft (op : BinaryOp) (x : Formula) : Formula → Formula
  | binary o l r =>
    if o.precedence = op.precedence then binary o (graft op x l) r
    else binary op x (binary o l r)
  | y => binary op x y

mutual

/-- A formula with its chains grouped to the left. -/
def regroup : Formula → Formula
  | word w => word w
  | text s => text s
  | name s => name s
  | raw s => raw s
  | call f arguments => call f (listRegroup arguments)
  | array items => array (listRegroup items)
  | list items => list (listRegroup items)
  | unary op x => unary op (regroup x)
  | binary op l r => graft op (regroup l) (regroup r)
  | range x lo hi => range (regroup x) (regroup lo) (regroup hi)

/-- Some formulas with their chains grouped to the left. -/
def listRegroup : List Formula → List Formula
  | [] => []
  | x :: xs => regroup x :: listRegroup xs

end

/-- The operators of a strength down the left side of a formula. -/
def spine (strength : Nat) : Formula → List BinaryOp
  | binary o l _ => if o.precedence = strength then o :: spine strength l else []
  | _ => []

theorem listRegroup_eq_map (xs : List Formula) : listRegroup xs = xs.map regroup := by
  induction xs with
  | nil => rfl
  | cons x xs ih => rw [listRegroup, ih, List.map_cons]

theorem regroup_bracketIf (wanted : Bool) (x : Formula) :
    (bracketIf wanted x).regroup = bracketIf wanted x.regroup := by
  cases wanted <;> rfl

theorem precedence_of_mem_spine {strength : Nat} {x : Formula} {o : BinaryOp}
    (h : o ∈ spine strength x) : o.precedence = strength := by
  induction x using spine.induct strength with
  | case1 p l r hp ih =>
      rw [spine, if_pos hp] at h
      rcases List.mem_cons.1 h with rfl | h
      · exact hp
      · exact ih h
  | case2 p l r hp =>
      rw [spine, if_neg hp] at h
      exact absurd h List.not_mem_nil
  | case3 x hx =>
      rw [spine] at h
      · exact absurd h List.not_mem_nil
      · exact hx

/-- Grafting passes the operators of the chain and leaves its own behind them. -/
theorem spine_graft (op : BinaryOp) (x y : Formula) :
    spine op.precedence (graft op x y)
      = spine op.precedence y ++ op :: spine op.precedence x := by
  induction y using graft.induct op with
  | case1 o l r ho ih =>
      rw [graft, if_pos ho, spine, if_pos ho, ih, spine, if_pos ho, List.cons_append]
  | case2 o l r ho =>
      rw [graft, if_neg ho, spine, if_pos rfl, spine, if_neg ho, List.nil_append]
  | case3 y hy =>
      have hempty : spine op.precedence y = [] := by
        rw [spine]
        exact hy
      rw [graft, spine, if_pos rfl, hempty, List.nil_append]
      exact hy

/-- A chain of another strength is none of the operators here. -/
theorem spine_graft_of_ne {op : BinaryOp} {strength : Nat} (h : op.precedence ≠ strength)
    (x y : Formula) : spine strength (graft op x y) = [] := by
  induction y using graft.induct op with
  | case1 o l r ho =>
      rw [graft, if_pos ho, spine, if_neg (ho ▸ h)]
  | case2 o l r ho => rw [graft, if_neg ho, spine, if_neg h]
  | case3 y hy =>
      rw [graft, spine, if_neg h]
      exact hy

/-! ## Tokens -/

theorem tokens_graft (op : BinaryOp) (x y : Formula) :
    (graft op x y).tokens = x.tokens ++ (symbolTokens op ++ y.tokens) := by
  induction y using graft.induct op with
  | case1 o l r ho ih =>
      rw [graft, if_pos ho, tokens, ih, tokens]
      simp only [List.append_assoc]
  | case2 o l r ho => rw [graft, if_neg ho, tokens]
  | case3 y hy =>
      rw [graft, tokens]
      exact hy

mutual

/-- Regrouping leaves the tokens as they are. -/
theorem tokens_regroup (x : Formula) : x.regroup.tokens = x.tokens := by
  cases x with
  | word w => rfl
  | text s => rfl
  | name s => rfl
  | raw s => rfl
  | call f arguments => rw [regroup, tokens, tokens, listTokens_listRegroup arguments]
  | array items => rw [regroup, tokens, tokens, listTokens_listRegroup items]
  | list items => rw [regroup, tokens, tokens, listTokens_listRegroup items]
  | unary op x => rw [regroup, tokens, tokens, tokens_regroup x]
  | binary op l r => rw [regroup, tokens_graft, tokens, tokens_regroup l, tokens_regroup r]
  | range x lo hi =>
      rw [regroup, tokens, tokens, tokens_regroup x, tokens_regroup lo, tokens_regroup hi]

theorem listTokens_listRegroup (xs : List Formula) :
    listTokens (listRegroup xs) = listTokens xs := by
  cases xs with
  | nil => rfl
  | cons x xs =>
      rw [listRegroup, listTokens, listTokens, tokens_regroup x, listTokens_listRegroup xs]

end

end Formula

/-! ## Levels -/

open Lexical Formula

theorem Conforms.of_le {j k : Nat} {x : Formula} (h : Conforms j x) (hkj : k ≤ j) (hj : j ≤ 8) :
    Conforms k x := by
  -- Induction on the levels between the two, one step of the grammar for each.
  rcases Nat.exists_eq_add_of_le hkj with ⟨d, rfl⟩
  induction d with
  | zero => exact h
  | succ d ih => exact ih (.next (by omega) h) (by omega) (by omega)

theorem Conforms.zero {k : Nat} {x : Formula} (h : Conforms k x) (hk : k ≤ 8) : Conforms 0 x :=
  h.of_le (Nat.zero_le k) hk

/-- What stands in brackets may stand anywhere. -/
theorem conforms_group {x : Formula} (h : Conforms 0 x) {k : Nat} (hk : k ≤ 8) :
    Conforms k (.list [x]) := by
  have hlist : Conforms 8 (.list [x]) := .list fun y hy => by
    rw [List.mem_singleton.1 hy]
    exact h
  exact hlist.of_le hk (Nat.le_refl 8)

theorem mem_levelOperators (op : BinaryOp) : op ∈ levelOperators op.precedence := by
  cases op <;> decide

theorem precedence_of_mem {op : BinaryOp} {k : Nat} (h : op ∈ levelOperators k) :
    op.precedence = k := by
  match k with
  | 1 | 2 | 4 | 5 | 6 => cases op <;> first | rfl | exact absurd h (by decide)
  | 0 | 3 | n + 7 => simp [levelOperators] at h

/-- An operator is of its own level at most. -/
theorem le_precedence_of_conforms {k : Nat} {op : BinaryOp} {l r : Formula}
    (h : Conforms k (.binary op l r)) : k ≤ op.precedence := by
  -- The induction needs a variable in the place of the formula.
  generalize hx : Formula.binary op l r = x at h
  induction h with
  | next _ _ ih => exact Nat.le_of_succ_le (ih hx)
  | binary hop =>
      cases hx
      exact Nat.le_of_eq (precedence_of_mem hop).symm
  | _ => cases hx

/-- A formula of the next level is no chain to graft onto. -/
theorem graft_of_conforms {op : BinaryOp} {y : Formula} (h : Conforms (op.precedence + 1) y)
    (x : Formula) : graft op x y = .binary op x y := by
  cases y with
  | binary o l r =>
      have hle := le_precedence_of_conforms h
      rw [graft, if_neg (by omega)]
  | _ => rfl

theorem spine_of_conforms {k : Nat} {y : Formula} (h : Conforms (k + 1) y) : spine k y = [] := by
  cases y with
  | binary o l r =>
      have hle := le_precedence_of_conforms h
      rw [spine, if_neg (by omega)]
  | _ => rfl

/-- An operator of a level stands between an operand of this level and one of the
    next. -/
theorem conforms_binary {op : BinaryOp} (hop : op ≠ .between) {x y : Formula}
    (hx : Conforms op.precedence x) (hy : Conforms (op.precedence + 1) y) :
    Conforms op.precedence (.binary op x y) :=
  .binary (mem_levelOperators op) hop hx hy

/-- A chain of an associative operator is grafted onto a formula of its level. -/
theorem conforms_graft {op : BinaryOp} (hop : op.associative = true) {x : Formula}
    (hx : Conforms op.precedence x) {k : Nat} (hk : k = op.precedence) {y : Formula}
    (hy : Conforms k y) : Conforms k (graft op x y) := by
  have hbetween : op ≠ .between := by
    rintro rfl
    cases hop
  have hlevel : k = 1 ∨ k = 2 ∨ k = 5 ∨ k = 6 := by
    subst hk
    cases op <;> first | decide | cases hop
  -- Induction on how the chain follows the grammar. It ends where a formula of the next
  -- level begins, and there the operand is put.
  induction hy with
  | next _ hy _ =>
      subst hk
      rw [graft_of_conforms hy]
      exact conforms_binary hbetween hx hy
  | unary ho _ _ =>
      rcases hlevel with rfl | rfl | rfl | rfl <;> cases ho
  | binary ho hne _ hr ihl _ =>
      rw [graft, if_pos (by rw [precedence_of_mem ho, hk])]
      exact .binary ho hne (ihl hk hlevel) hr
  | _ => omega

/-! ## Literals -/

theorem conforms_ofNumeral {s : List Char} (h : IsNumeral s) : Conforms 7 (ofNumeral s) := by
  rcases h with ⟨w, hw, hs⟩
  have hword : Conforms 8 (.word w) := .word hw.not_mem_keywords
  rcases hs with rfl | rfl
  · rw [ofNumeral_of_isConstant hw]
    exact .next (by decide) hword
  · exact .unary rfl (.next (by decide) hword)

theorem regroup_ofNumeral (s : List Char) : (ofNumeral s).regroup = ofNumeral s := by
  unfold ofNumeral
  split
  · rfl
  · rfl

theorem conforms_listRegroup {α : Type} {items : List α} {f : α → Formula}
    (h : ∀ a ∈ items, Conforms 0 (f a).regroup) :
    ∀ x ∈ listRegroup (items.map f), Conforms 0 x := by
  intro x hx
  rw [listRegroup_eq_map, List.map_map] at hx
  rcases List.mem_map.1 hx with ⟨a, ha, rfl⟩
  exact h a ha

end Grammar

open Lexical Grammar Formula

/-- A literal follows the grammar. It may have a sign. -/
theorem Value.conforms_formula (v : Value) : Conforms 7 v.formula := by
  induction v using Value.mem_induction with
  | array items ih =>
      rw [formula, listFormula_eq_map]
      refine .next (by decide) (.array fun x hx => ?_)
      rcases List.mem_map.1 hx with ⟨v, hv, rfl⟩
      exact (ih v hv).zero (by decide)
  | tuple items ih =>
      have hitems : ∀ x ∈ items.map formula, Conforms 0 x := by
        intro x hx
        rcases List.mem_map.1 hx with ⟨v, hv, rfl⟩
        exact (ih v hv).zero (by decide)
      rw [formula, listFormula_eq_map, ofTuple]
      split
      · exact .next (by decide) (.call _ hitems)
      · exact .next (by decide) (.list hitems)
  | map entries ih =>
      rw [formula, entriesFormula_eq_flatMap]
      refine .next (by decide) (.call _ fun x hx => ?_)
      rcases List.mem_flatMap.1 hx with ⟨e, he, hx⟩
      rcases List.mem_cons.1 hx with rfl | hx
      · exact (ih e he).1.zero (by decide)
      · rw [List.mem_singleton.1 hx]
        exact (ih e he).2.zero (by decide)
  | null => exact .next (by decide) (.word (by decide))
  | bool b => cases b <;> exact .next (by decide) (.word (by decide))
  | int n => exact conforms_ofNumeral (isNumeral_signed _)
  | uint n => exact conforms_ofNumeral ⟨_, (isFigures_digits _).isConstant, Or.inl rfl⟩
  | float x => exact conforms_ofNumeral (isNumeral_float x)
  | decimal d => exact conforms_ofNumeral (isNumeral_decimal d)
  | string s => exact .next (by decide) (.text _)
  | date d => exact .next (by decide) (.text _)
  | dateTime t => exact .next (by decide) (.text _)
  | uuid u => exact .next (by decide) (.text _)
  | ipv4 a => exact .next (by decide) (.text _)
  | ipv6 a => exact .next (by decide) (.text _)
  | enum name => exact .next (by decide) (.text _)
  | json j => exact .next (by decide) (.text _)

/-- There is nothing to regroup in a literal. -/
theorem Value.regroup_formula (v : Value) : v.formula.regroup = v.formula := by
  induction v using Value.mem_induction with
  | array items ih =>
      rw [formula, listFormula_eq_map, regroup, listRegroup_eq_map, List.map_map]
      exact congrArg _ (List.map_congr_left ih)
  | tuple items ih =>
      have hitems : listRegroup (items.map formula) = items.map formula := by
        rw [listRegroup_eq_map, List.map_map]
        exact List.map_congr_left ih
      rw [formula, listFormula_eq_map, ofTuple]
      split
      · rw [regroup, hitems]
      · rw [regroup, hitems]
  | map entries ih =>
      rw [formula, entriesFormula_eq_flatMap, regroup, listRegroup_eq_map, List.map_flatMap]
      refine congrArg _ (List.flatMap_congr fun e he => ?_)
      rw [List.map_cons, List.map_cons, List.map_nil, (ih e he).1, (ih e he).2]
  | null => exact regroup_ofNumeral (sql .null)
  | bool b => exact regroup_ofNumeral (sql (.bool b))
  | int n => exact regroup_ofNumeral (sql (.int n))
  | uint n => exact regroup_ofNumeral (sql (.uint n))
  | float x => exact regroup_ofNumeral (sql (.float x))
  | decimal d => exact regroup_ofNumeral (sql (.decimal d))
  | string s => rfl
  | date d => rfl
  | dateTime t => rfl
  | uuid u => rfl
  | ipv4 a => rfl
  | ipv6 a => rfl
  | enum name => rfl
  | json j => rfl

namespace Expr

mutual

/-- Every range has a list of two bounds on its right. -/
def bounded : Expr → Bool
  | literal _ => true
  | field _ => true
  | raw _ => true
  | list items => listBounded items
  | call _ arguments => listBounded arguments
  | unary _ e => bounded e
  | binary .between x (list [lo, hi]) => bounded x && (bounded lo && bounded hi)
  | binary op l r => op != .between && (bounded l && bounded r)

/-- Every range in some expressions has a list of two bounds on its right. -/
def listBounded : List Expr → Bool
  | [] => true
  | e :: es => bounded e && listBounded es

end

theorem listBounded_eq_all (es : List Expr) : listBounded es = es.all bounded := by
  induction es with
  | nil => rfl
  | cons e es ih => rw [listBounded, ih, List.all_cons]

theorem bounded_binary {op : BinaryOp} {r : Expr} (h : ¬ Ranged op r) (l : Expr) :
    bounded (binary op l r) = (op != .between && (bounded l && bounded r)) := by
  rw [bounded]
  exact fun lo hi hop hr => h ⟨hop, lo, hi, hr⟩

/-- The level at which the text of an expression is read. A literal may have a sign. -/
def level (e : Expr) : Nat :=
  match e.precedence? with
  | none => 0
  | some strength => min strength 7

theorem level_of_precedence? {e : Expr} {strength : Nat} (h : e.precedence? = some strength) :
    e.level = min strength 7 := by
  rw [level, h]

theorem level_le_eight (e : Expr) : e.level ≤ 8 := by
  unfold level
  split
  · exact Nat.zero_le 8
  · omega

/-- A left operand is read at the level of its operator. -/
theorem conforms_operand {e : Expr} {x : Formula} (hx : Conforms e.level x) {strength : Nat}
    (h : strength ≤ 7) : Conforms strength (bracketIf (e.needsBrackets strength) x) := by
  by_cases hwanted : e.needsBrackets strength = true
  · rw [hwanted]
    exact conforms_group (hx.zero e.level_le_eight) (by omega)
  · have hle : strength ≤ e.level := by
      unfold needsBrackets at hwanted
      split at hwanted
      · exact absurd rfl hwanted
      · rename_i p hp
        rw [level_of_precedence? hp]
        simp only [decide_eq_true_eq] at hwanted
        omega
    rw [Bool.not_eq_true] at hwanted
    rw [hwanted]
    exact hx.of_le hle e.level_le_eight

/-- A right operand is read at the level after that of its operator, but for a chain
    that is left without brackets. -/
theorem conforms_right {op : BinaryOp} {e : Expr} {x : Formula} (hx : Conforms e.level x) :
    Conforms (op.precedence + 1) (bracketIf (e.needsBracketsRight op) x) ∨
      (e.continuesChain op = true ∧ e.needsBracketsRight op = false ∧
        Conforms op.precedence x) := by
  have hprec := lt_seven_of_mem (mem_levelOperators op)
  by_cases hwanted : e.needsBracketsRight op = true
  · left
    rw [hwanted]
    exact conforms_group (hx.zero e.level_le_eight) (by omega)
  · -- Without brackets the operand binds more strongly, or it is a chain of the operator.
    rw [Bool.not_eq_true] at hwanted
    have hunwanted := hwanted
    unfold needsBracketsRight at hwanted
    split at hwanted
    · cases hwanted
    · rename_i p hp
      rw [level_of_precedence? hp] at hx
      simp only [Bool.or_eq_false_iff, decide_eq_false_iff_not, Bool.and_eq_false_imp,
        decide_eq_true_eq, Bool.not_eq_false'] at hwanted
      by_cases heq : p = op.precedence
      · refine Or.inr ⟨hwanted.2 heq, hunwanted, hx.of_le (by omega) (by omega)⟩
      · rw [hunwanted]
        exact Or.inl (hx.of_le (by omega) (by omega))

theorem associative_of_continuesChain {op : BinaryOp} {e : Expr}
    (h : e.continuesChain op = true) : op.associative = true := by
  unfold continuesChain at h
  split at h
  · exact (Bool.and_eq_true_iff.1 h).2
  · cases h

/-- A chain is left without brackets. -/
theorem needsBracketsRight_of_continuesChain {op : BinaryOp} {e : Expr}
    (h : e.continuesChain op = true) : e.needsBracketsRight op = false := by
  cases e with
  | binary o l r =>
      have ho := (Bool.and_eq_true_iff.1 h).1
      rw [decide_eq_true_eq] at ho
      subst ho
      unfold needsBracketsRight
      rw [h]
      simp [precedence?]
  | _ => cases h

/-- An operator before its operand is of its level. -/
theorem conforms_regroup_unary {op : UnaryOp} {e : Expr} {x : Formula}
    (hx : Conforms e.level x.regroup) :
    Conforms op.precedence (Formula.unary op (e.operandFormula op x)).regroup := by
  have hlevel : levelSign? op.precedence = some op := by
    cases op <;> rfl
  refine .unary hlevel ?_
  have hinner := conforms_operand hx (show op.precedence ≤ 7 by cases op <;> decide)
  unfold operandFormula
  cases op with
  | not =>
      simp only
      rw [regroup_bracketIf]
      exact hinner
  | neg =>
      simp only
      rw [regroup_bracketIf, regroup_bracketIf]
      -- Whether there is a second pair of brackets does not matter.
      generalize decide ((bracketedIf _ e.sql).head? = some '-') = wanted
      cases wanted
      · exact hinner
      · exact conforms_group (hinner.zero (by decide)) (by decide)

/-- A regrouped expression follows the grammar at its level, if its ranges have their
    bounds. -/
theorem conforms_regroup {e : Expr} (h : e.bounded = true) :
    Conforms e.level e.formula.regroup := by
  induction e using Expr.mem_induction with
  | literal v =>
      rw [formula, v.regroup_formula]
      exact v.conforms_formula
  | field name => exact .next (show 7 < 8 by decide) (.name _)
  | raw s => exact .raw _
  | list items ih =>
      rw [bounded, listBounded_eq_all, List.all_eq_true] at h
      rw [formula, listFormula_eq_map]
      refine .next (show 7 < 8 by decide) (.list (conforms_listRegroup fun e he => ?_))
      exact (ih e he (h e he)).zero e.level_le_eight
  | call f arguments ih =>
      rw [bounded, listBounded_eq_all, List.all_eq_true] at h
      rw [formula, listFormula_eq_map]
      refine .next (show 7 < 8 by decide) (.call _ (conforms_listRegroup fun e he => ?_))
      exact (ih e he (h e he)).zero e.level_le_eight
  | unary op e ih =>
      rw [bounded] at h
      have hmin : min op.precedence 7 = op.precedence := by
        cases op <;> rfl
      rw [formula, level_of_precedence? rfl, hmin]
      exact conforms_regroup_unary (ih h)
  | range x lo hi hx hlo hhi =>
      rw [bounded, Bool.and_eq_true, Bool.and_eq_true] at h
      have hleft := conforms_operand (hx h.1) (show BinaryOp.between.precedence ≤ 7 by decide)
      -- A comparison continues no chain, so that its bounds have brackets where needed.
      have hbound : ∀ {b : Expr}, Conforms b.level b.formula.regroup →
          Conforms (BinaryOp.between.precedence + 1)
            (bracketIf (b.needsBracketsRight .between) b.formula.regroup) := by
        intro b hb
        rcases conforms_right hb with hright | ⟨hchain, -, -⟩
        · exact hright
        · exact absurd (associative_of_continuesChain hchain) (by decide)
      rw [formula, regroup, regroup_bracketIf, regroup_bracketIf, regroup_bracketIf]
      exact .range hleft (hbound (hlo h.2.1)) (hbound (hhi h.2.2))
  | binary op l r hranged hl hr =>
      rw [bounded_binary hranged, Bool.and_eq_true, Bool.and_eq_true, bne_iff_ne] at h
      rcases h with ⟨hop, hboundl, hboundr⟩
      have hseven := Nat.le_of_lt (lt_seven_of_mem (mem_levelOperators op))
      have hleft := conforms_operand (hl hboundl) hseven
      rw [formula_binary hranged, level_of_precedence? rfl, Nat.min_eq_left hseven, regroup,
        regroup_bracketIf, regroup_bracketIf]
      rcases conforms_right (hr hboundr) with hright | ⟨hchain, hunwanted, hright⟩
      · rw [graft_of_conforms hright]
        exact conforms_binary hop hleft hright
      · rw [hunwanted]
        exact conforms_graft (associative_of_continuesChain hchain) hleft rfl hright

/-- What is read in the text of an expression is read in the tokens of its formula. -/
theorem read?_symbols (e : Expr) : read? e.symbols = readTokens? e.formula.tokens := by
  have hspells := e.spells_pieces [] fun c hc => absurd hc (by simp)
  rw [List.append_nil] at hspells
  have htokens : tokenize e.pieces = e.formula.tokens := by
    rw [hspells]
    exact List.append_nil _
  rw [read?, symbols, scan_symbols e.clean_pieces.unquoted, Option.bind_some,
    if_pos e.clean_pieces.commentFree, htokens]

/-- The text of an expression is read with its chains grouped to the left. -/
theorem read?_symbols_of_bounded {e : Expr} (h : e.bounded = true) :
    read? e.symbols = some e.formula.regroup := by
  rw [read?_symbols, readTokens?_eq_some_iff]
  exact ⟨(conforms_regroup h).zero e.level_le_eight, tokens_regroup _⟩

end Expr

end ColumnStore
