import ColumnStore.Proofs.Grammar.Token

/-!
# Formulas

What a text of the language of conditions says, with its brackets kept. Round
brackets around one formula only group; they are a list of one item, and the
difference to the item is one of reading, never of meaning.

`Expr.formula` writes down the shape of the text of an expression: the same
operators over the same operands, and brackets where the text has them. A
constant that is composite becomes what its literal says, and the sign of a
number becomes an operator before it.

## Main definitions

* `Formula`: A formula with its brackets.
* `Formula.tokens`: The tokens of a formula.
* `Value.formula`, `Expr.formula`: The formula of a value and of an expression.

## Theorems

* `spells_pieces`: The pieces of an expression have the tokens of its formula.
-/

namespace ColumnStore

namespace Grammar

/-- What a text of the language of conditions says. -/
inductive Formula
  /-- A number, or another constant without quotes. -/
  | word (w : List Char)
  /-- A quoted string. -/
  | text (s : List Char)
  /-- A quoted name. -/
  | name (s : List Char)
  /-- A raw text. -/
  | raw (s : List Char)
  /-- A function applied to arguments. -/
  | call (f : List Char) (arguments : List Formula)
  /-- Items in square brackets. -/
  | array (items : List Formula)
  /-- Items in round brackets. One item is grouped by them. -/
  | list (items : List Formula)
  /-- An operator before an operand. -/
  | unary (op : UnaryOp) (operand : Formula)
  /-- An operator between two operands. -/
  | binary (op : BinaryOp) (left right : Formula)
  /-- Membership in the range between two bounds. -/
  | range (x lo hi : Formula)

namespace Formula

/-- Tokens between two marks. -/
def between (opening closing : Char) (items : List (List Token)) : List Token :=
  .mark opening :: (commaTokens items ++ [.mark closing])

/-- The token of an operator before its operand. -/
def unaryToken : UnaryOp → Token
  | .not => .word "NOT".toList
  | .neg => .mark '-'

mutual

/-- The tokens of a formula. -/
def tokens : Formula → List Token
  | word w => [.word w]
  | text s => [.quoted s]
  | name s => [.named s]
  | raw s => [.verbatim s]
  | call f arguments => .function f :: between '(' ')' (listTokens arguments)
  | array items => between '[' ']' (listTokens items)
  | list items => between '(' ')' (listTokens items)
  | unary op x => unaryToken op :: tokens x
  | binary op l r => tokens l ++ (symbolTokens op ++ tokens r)
  | range x lo hi =>
    tokens x ++ (symbolTokens .between ++ (tokens lo ++ (symbolTokens .and ++ tokens hi)))

/-- The tokens of each formula of a list. -/
def listTokens : List Formula → List (List Token)
  | [] => []
  | x :: xs => tokens x :: listTokens xs

end

theorem listTokens_eq_map (xs : List Formula) : listTokens xs = xs.map tokens := by
  induction xs with
  | nil => rfl
  | cons x xs ih => rw [listTokens, ih, List.map_cons]

/-- A formula, in brackets if so wanted. -/
def bracketIf (wanted : Bool) (x : Formula) : Formula :=
  if wanted then list [x] else x

/-- A constant without quotes, with its sign as an operator. -/
def ofNumeral : List Char → Formula
  | '-' :: w => unary .neg (word w)
  | w => word w

/-- The formula of a tuple. One item takes the name of the constructor. -/
def ofTuple (items : List Formula) : Formula :=
  if items.length = 1 then call "tuple".toList items else list items

end Formula

end Grammar

open Lexical Grammar

namespace Value

mutual

/-- What the literal of a value says. -/
def formula : Value → Formula
  | null => .ofNumeral (sql null)
  | bool b => .ofNumeral (sql (bool b))
  | int n => .ofNumeral (sql (int n))
  | uint n => .ofNumeral (sql (uint n))
  | float x => .ofNumeral (sql (float x))
  | decimal d => .ofNumeral (sql (decimal d))
  | string s => .text s.toList
  | date d => .text d.text
  | dateTime t => .text t.text
  | uuid u => .text u.text
  | ipv4 a => .text a.text
  | ipv6 a => .text a.text
  | enum name => .text name.toList
  | array items => .array (listFormula items)
  | tuple items => .ofTuple (listFormula items)
  | map entries => .call "map".toList (entriesFormula entries)
  | json j => .text j.text

/-- What the literals of a list of values say. -/
def listFormula : List Value → List Formula
  | [] => []
  | x :: xs => formula x :: listFormula xs

/-- What the literals of keys and values say in turn. -/
def entriesFormula : List (Value × Value) → List Formula
  | [] => []
  | (k, x) :: xs => formula k :: formula x :: entriesFormula xs

end

theorem listFormula_eq_map (vs : List Value) : listFormula vs = vs.map formula := by
  induction vs with
  | nil => rfl
  | cons v vs ih => rw [listFormula, ih, List.map_cons]

theorem entriesFormula_eq_flatMap (entries : List (Value × Value)) :
    entriesFormula entries = entries.flatMap fun e => [formula e.1, formula e.2] := by
  induction entries with
  | nil => rfl
  | cons e es ih =>
      rcases e with ⟨k, x⟩
      rw [entriesFormula, ih]
      rfl

end Value

namespace Expr

/-- The operand of an operator before it, in brackets if it binds less strongly,
    or if a minus sign would meet another one. -/
def operandFormula (op : UnaryOp) (e : Expr) (x : Formula) : Formula :=
  let inner := Formula.bracketIf (e.needsBrackets op.precedence) x
  match op with
  | .not => inner
  | .neg =>
    Formula.bracketIf
      ((bracketedIf (e.needsBrackets UnaryOp.neg.precedence) e.sql).head? = some '-') inner

mutual

/-- The shape of the text of an expression. -/
def formula : Expr → Formula
  | literal v => v.formula
  | field name => .name name.toList
  | raw s => .raw s.toList
  | list items => .list (listFormula items)
  | call f arguments => .call f.toList (listFormula arguments)
  | unary op e => .unary op (e.operandFormula op (formula e))
  | binary .between l (list [lo, hi]) =>
    .range (.bracketIf (l.needsBrackets BinaryOp.between.precedence) (formula l))
      (.bracketIf (lo.needsBracketsRight .between) (formula lo))
      (.bracketIf (hi.needsBracketsRight .between) (formula hi))
  | binary op l r =>
    .binary op (.bracketIf (l.needsBrackets op.precedence) (formula l))
      (.bracketIf (r.needsBracketsRight op) (formula r))

/-- The shapes of the texts of some expressions. -/
def listFormula : List Expr → List Formula
  | [] => []
  | e :: es => formula e :: listFormula es

end

theorem listFormula_eq_map (es : List Expr) : listFormula es = es.map formula := by
  induction es with
  | nil => rfl
  | cons e es ih => rw [listFormula, ih, List.map_cons]

theorem formula_binary {op : BinaryOp} {r : Expr} (h : ¬ Ranged op r) (l : Expr) :
    formula (binary op l r) = .binary op (.bracketIf (l.needsBrackets op.precedence) l.formula)
      (.bracketIf (r.needsBracketsRight op) r.formula) := by
  rw [formula]
  exact fun lo hi hop hr => h ⟨hop, lo, hi, hr⟩

end Expr

namespace Grammar

/-! ## Spelling -/

theorem spells_between_round {items : List (List Piece)} {ts : List (List Token)}
    (h : Spells (separated items) (commaTokens ts)) :
    Spells (enclosed (separated items)) (Formula.between '(' ')' ts) :=
  spells_enclosed h

theorem spells_bracketIf (wanted : Bool) {ps : List Piece} {x : Formula}
    (h : Spells ps x.tokens) :
    Spells (enclosedIf wanted ps) (Formula.bracketIf wanted x).tokens := by
  cases wanted
  · exact h
  · have hlist : (Formula.bracketIf true x).tokens = .mark '(' :: (x.tokens ++ [.mark ')']) := by
      simp [Formula.bracketIf, Formula.tokens, Formula.listTokens, Formula.between, commaTokens,
        List.intercalate]
    rw [hlist]
    exact spells_enclosed h

/-- A constant without a sign does not begin like one with it. -/
theorem ofNumeral_of_isConstant {w : List Char} (h : IsConstant w) :
    Formula.ofNumeral w = .word w := by
  unfold Formula.ofNumeral
  split
  · exact absurd (h.isWordChar '-' (by simp)) (by decide)
  · rfl

theorem spells_ofNumeral {s : List Char} (h : IsNumeral s) :
    Spells (plains s) (Formula.ofNumeral s).tokens := by
  rcases h with ⟨w, hw, hs⟩
  have hspells := spells_word hw.ne_nil (List.all_eq_true.2 hw.isWordChar)
  rcases hs with rfl | rfl
  · rw [ofNumeral_of_isConstant hw]
    exact hspells
  · exact spells_cons_mark (by decide) (by decide) hspells

theorem spells_arrayPieces {items : List (List Piece)} {ts : List (List Token)}
    (h : Spells (separated items) (commaTokens ts)) :
    Spells (arrayPieces items) (Formula.between '[' ']' ts) :=
  spells_cons_mark (by decide) (by decide)
    (spells_mark (by decide) (by decide) (by decide) h spells_nil)

theorem spells_constructor {name : List Char} (hne : name ≠ [])
    (hname : name.all isWordChar = true) {items : List (List Piece)}
    {ts : List (List Token)} (h : Spells (separated items) (commaTokens ts)) :
    Spells (plains name ++ enclosed (separated items))
      (.function name :: Formula.between '(' ')' ts) :=
  spells_word_enclosed hne hname h

theorem spells_tuplePieces {α : Type} {pieces : α → List Piece} {formula : α → Formula}
    {items : List α}
    (h : Spells (separated (items.map pieces)) (commaTokens (items.map fun x => (formula x).tokens))) :
    Spells (tuplePieces (items.map pieces)) (Formula.ofTuple (items.map formula)).tokens := by
  unfold tuplePieces Formula.ofTuple
  rw [List.length_map, List.length_map]
  by_cases hone : items.length = 1
  · rw [if_pos hone, if_pos hone, Formula.tokens, Formula.listTokens_eq_map, List.map_map]
    exact spells_constructor (by decide) (by decide) h
  · rw [if_neg hone, if_neg hone, Formula.tokens, Formula.listTokens_eq_map, List.map_map]
    exact spells_between_round h

/-- The operand of an operator before it has the brackets that the text has. -/
theorem spells_unaryPieces (op : UnaryOp) (e : Expr) (h : Spells e.pieces e.formula.tokens) :
    Spells (unaryPieces op (enclosedIf (e.needsBrackets op.precedence) e.pieces))
      (Formula.unary op (e.operandFormula op e.formula)).tokens := by
  have hinner := spells_bracketIf (e.needsBrackets op.precedence) h
  cases op with
  | not =>
      have hword : Spells (plains "NOT".toList) [.word "NOT".toList] :=
        spells_word (by decide) (by decide)
      exact spells_blank hword hinner
  | neg =>
      -- Whether a second pair of brackets is needed is asked of the text of the first.
      refine spells_cons_mark (by decide) (by decide) ?_
      rw [textOf_enclosedIf, e.textOf_pieces]
      exact spells_bracketIf _ hinner

end Grammar

/-- The pieces of a value have the tokens of what its literal says. -/
theorem Value.spells_pieces (v : Value) : Spells v.pieces v.formula.tokens := by
  induction v using Value.mem_induction with
  | array items ih =>
      rw [pieces, formula, listPieces_eq_map, listFormula_eq_map, Formula.tokens,
        Formula.listTokens_eq_map, List.map_map]
      exact spells_arrayPieces (spells_separated ih)
  | tuple items ih =>
      rw [pieces, formula, listPieces_eq_map, listFormula_eq_map]
      exact spells_tuplePieces (spells_separated ih)
  | map entries ih =>
      rw [pieces, formula, Formula.tokens, Formula.listTokens_eq_map]
      -- Keys and values are read as the items of one list.
      refine spells_constructor (by decide) (by decide) ?_
      have hflat : ∀ {β : Type} (f : Value → β), (entries.flatMap fun e => [f e.1, f e.2])
          = (entries.flatMap fun e => [e.1, e.2]).map f := by
        intro β f
        rw [List.map_flatMap]
        rfl
      rw [entriesPieces_eq_flatMap, entriesFormula_eq_flatMap, hflat pieces, hflat formula,
        List.map_map]
      refine spells_separated fun v hv => ?_
      rcases List.mem_flatMap.1 hv with ⟨e, he, hv⟩
      rcases List.mem_cons.1 hv with rfl | hv
      · exact (ih e he).1
      · rw [List.mem_singleton.1 hv]
        exact (ih e he).2
  | null => exact spells_word (w := "NULL".toList) (by decide) (by decide)
  | bool b => cases b <;> exact spells_word (by decide) (by decide)
  | int n => exact spells_ofNumeral (isNumeral_signed _)
  | uint n => exact spells_ofNumeral ⟨_, (isFigures_digits _).isConstant, Or.inl rfl⟩
  | float x => exact spells_ofNumeral (isNumeral_float x)
  | decimal d => exact spells_ofNumeral (isNumeral_decimal d)
  | string s => exact spells_quoted _
  | date d => exact spells_quoted _
  | dateTime t => exact spells_quoted _
  | uuid u => exact spells_quoted _
  | ipv4 a => exact spells_quoted _
  | ipv6 a => exact spells_quoted _
  | enum name => exact spells_quoted _
  | json j => exact spells_quoted _

/-- The pieces of an expression have the tokens of its formula. -/
theorem Expr.spells_pieces (e : Expr) : Spells e.pieces e.formula.tokens := by
  induction e using Expr.mem_induction with
  | literal v => exact v.spells_pieces
  | field name => exact spells_named _
  | raw s => exact spells_verbatim _
  | list items ih =>
      rw [pieces, formula, listPieces_eq_map, listFormula_eq_map, Formula.tokens,
        Formula.listTokens_eq_map, List.map_map]
      exact spells_between_round (spells_separated ih)
  | call f arguments ih =>
      rw [pieces, formula, listPieces_eq_map, listFormula_eq_map, Formula.tokens,
        Formula.listTokens_eq_map, List.map_map]
      exact spells_function_enclosed _ (spells_separated ih)
  | unary op e ih => exact spells_unaryPieces op e ih
  | range x lo hi hx hlo hhi =>
      exact spells_joined .between (spells_bracketIf _ hx)
        (spells_joined .and (spells_bracketIf _ hlo) (spells_bracketIf _ hhi))
  | binary op l r h hl hr =>
      rw [pieces_binary h, formula_binary h]
      exact spells_joined op (spells_bracketIf _ hl) (spells_bracketIf _ hr)

end ColumnStore
