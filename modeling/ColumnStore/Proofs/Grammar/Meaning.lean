import ColumnStore.Proofs.Grammar.Formula

/-!
# Meanings

What formulas and expressions mean. A meaning gives values of some type to the
constants, to the names, to the raw texts and to the functions, and an operation
to every operator. Its laws are the ones that hold of all meanings of this
language: conditions on truth values may be regrouped in chains of `AND` and of
`OR`, and numbers in chains of `+` and of `*`, also where a difference is added.
A list of one item is its item, because brackets around one formula group.

Nothing is said of quotients and remainders. On whole numbers these may not be
regrouped with a product, as `integers` shows.

## Main definitions

* `Meaning`: Values for the parts of the language, with the laws above.
* `Meaning.eval`: The value of a formula.
* `Meaning.expr`: The value of an expression, read off its tree.
* `Assignment`, `Assignment.integers`: Values that are whole numbers.

## Theorems

* `binary_regroup`: Which operators may be regrouped.
* `eval_formula_value`: A literal says what its value is.
-/

namespace ColumnStore

namespace Grammar

/-- Values for the parts of the language of conditions. -/
structure Meaning (D : Type) where
  /-- A constant without quotes. -/
  word : List Char → D
  /-- A quoted string. -/
  text : List Char → D
  /-- A name. -/
  name : List Char → D
  /-- A raw text. -/
  raw : List Char → D
  /-- A function at some arguments. -/
  call : List Char → List D → D
  /-- Items in square brackets. -/
  array : List D → D
  /-- Items in round brackets. -/
  list : List D → D
  /-- An operator before an operand. -/
  unary : UnaryOp → D → D
  /-- An operator between two operands. -/
  binary : BinaryOp → D → D → D
  /-- Membership in the range between two bounds. -/
  range : D → D → D → D
  /-- Brackets around one formula group. -/
  list_one : ∀ x, list [x] = x
  /-- A chain of alternatives may be regrouped. -/
  or_or : ∀ x y z, binary .or x (binary .or y z) = binary .or (binary .or x y) z
  /-- A chain of conditions may be regrouped. -/
  and_and : ∀ x y z, binary .and x (binary .and y z) = binary .and (binary .and x y) z
  /-- A chain of sums may be regrouped. -/
  add_add : ∀ x y z, binary .add x (binary .add y z) = binary .add (binary .add x y) z
  /-- A sum may be taken before a difference. -/
  add_sub : ∀ x y z, binary .add x (binary .sub y z) = binary .sub (binary .add x y) z
  /-- A chain of products may be regrouped. -/
  mul_mul : ∀ x y z, binary .mul x (binary .mul y z) = binary .mul (binary .mul x y) z

/-- An operator may be taken before one that stands to its right in brackets. -/
def regroups : BinaryOp → BinaryOp → Bool
  | .or, .or | .and, .and | .add, .add | .add, .sub | .mul, .mul => true
  | _, _ => false

namespace Meaning

variable {D : Type} (M : Meaning D)

theorem binary_regroup {op o : BinaryOp} (h : regroups op o = true) (x y z : D) :
    M.binary op x (M.binary o y z) = M.binary o (M.binary op x y) z := by
  unfold regroups at h
  split at h
  · exact M.or_or x y z
  · exact M.and_and x y z
  · exact M.add_add x y z
  · exact M.add_sub x y z
  · exact M.mul_mul x y z
  · cases h

/-! ## Formulas -/

mutual

/-- The value of a formula. -/
def eval : Formula → D
  | .word w => M.word w
  | .text s => M.text s
  | .name s => M.name s
  | .raw s => M.raw s
  | .call f arguments => M.call f (listEval arguments)
  | .array items => M.array (listEval items)
  | .list items => M.list (listEval items)
  | .unary op x => M.unary op (eval x)
  | .binary op l r => M.binary op (eval l) (eval r)
  | .range x lo hi => M.range (eval x) (eval lo) (eval hi)

/-- The values of some formulas. -/
def listEval : List Formula → List D
  | [] => []
  | x :: xs => eval x :: listEval xs

end

theorem listEval_eq_map (xs : List Formula) : M.listEval xs = xs.map M.eval := by
  induction xs with
  | nil => rfl
  | cons x xs ih => rw [listEval, ih, List.map_cons]

/-- Brackets do not change the value. -/
theorem eval_bracketIf (wanted : Bool) (x : Formula) :
    M.eval (Formula.bracketIf wanted x) = M.eval x := by
  cases wanted
  · rfl
  · exact M.list_one (M.eval x)

/-! ## Expressions -/

/-- The value of a constant without quotes, with the sign taken off. -/
def numeral : List Char → D
  | '-' :: w => M.unary .neg (M.word w)
  | w => M.word w

/-- The value of a tuple. One item takes the name of the constructor. -/
def tuple (items : List D) : D :=
  if items.length = 1 then M.call "tuple".toList items else M.list items

mutual

/-- The value of a constant. -/
def value : Value → D
  | .null => M.numeral (Value.sql .null)
  | .bool b => M.numeral (Value.sql (.bool b))
  | .int n => M.numeral (Value.sql (.int n))
  | .uint n => M.numeral (Value.sql (.uint n))
  | .float x => M.numeral (Value.sql (.float x))
  | .decimal d => M.numeral (Value.sql (.decimal d))
  | .string s => M.text s.toList
  | .date d => M.text d.text
  | .dateTime t => M.text t.text
  | .uuid u => M.text u.text
  | .ipv4 a => M.text a.text
  | .ipv6 a => M.text a.text
  | .enum name => M.text name.toList
  | .array items => M.array (listValue items)
  | .tuple items => M.tuple (listValue items)
  | .map entries => M.call "map".toList (entriesValue entries)
  | .json j => M.text j.text

/-- The values of some constants. -/
def listValue : List Value → List D
  | [] => []
  | v :: vs => value v :: listValue vs

/-- The values of keys and of what stands under them in turn. -/
def entriesValue : List (Value × Value) → List D
  | [] => []
  | (k, v) :: es => value k :: value v :: entriesValue es

end

theorem listValue_eq_map (vs : List Value) : M.listValue vs = vs.map M.value := by
  induction vs with
  | nil => rfl
  | cons v vs ih => rw [listValue, ih, List.map_cons]

theorem entriesValue_eq_flatMap (entries : List (Value × Value)) :
    M.entriesValue entries = entries.flatMap fun e => [M.value e.1, M.value e.2] := by
  induction entries with
  | nil => rfl
  | cons e es ih =>
      rcases e with ⟨k, v⟩
      rw [entriesValue, ih]
      rfl

mutual

/-- The value of an expression. A range has a list of two bounds on its right. -/
def expr : Expr → D
  | .literal v => M.value v
  | .field name => M.name name.toList
  | .raw s => M.raw s.toList
  | .list items => M.list (listExpr items)
  | .call f arguments => M.call f.toList (listExpr arguments)
  | .unary op e => M.unary op (expr e)
  | .binary .between x (.list [lo, hi]) => M.range (expr x) (expr lo) (expr hi)
  | .binary op l r => M.binary op (expr l) (expr r)

/-- The values of some expressions. -/
def listExpr : List Expr → List D
  | [] => []
  | e :: es => expr e :: listExpr es

end

theorem listExpr_eq_map (es : List Expr) : M.listExpr es = es.map M.expr := by
  induction es with
  | nil => rfl
  | cons e es ih => rw [listExpr, ih, List.map_cons]

theorem expr_binary {op : BinaryOp} {r : Expr} (h : ¬ Expr.Ranged op r) (l : Expr) :
    M.expr (.binary op l r) = M.binary op (M.expr l) (M.expr r) := by
  rw [expr]
  exact fun lo hi hop hr => h ⟨hop, lo, hi, hr⟩

/-! ## Literals -/

theorem eval_ofNumeral (s : List Char) : M.eval (Formula.ofNumeral s) = M.numeral s := by
  unfold Formula.ofNumeral
  split
  · rfl
  · rename_i hsign
    unfold numeral
    split
    · exact absurd rfl (hsign _)
    · rfl

theorem eval_ofTuple (items : List Formula) :
    M.eval (Formula.ofTuple items) = M.tuple (items.map M.eval) := by
  unfold Formula.ofTuple tuple
  rw [List.length_map]
  split
  · rw [eval, listEval_eq_map]
  · rw [eval, listEval_eq_map]

/-- A literal says what its value is. -/
theorem eval_formula_value (v : Value) : M.eval v.formula = M.value v := by
  induction v using Value.mem_induction with
  | array items ih =>
      rw [Value.formula, value, eval, listEval_eq_map, Value.listFormula_eq_map, listValue_eq_map,
        List.map_map]
      exact congrArg M.array (List.map_congr_left ih)
  | tuple items ih =>
      rw [Value.formula, value, eval_ofTuple, Value.listFormula_eq_map, listValue_eq_map,
        List.map_map]
      exact congrArg M.tuple (List.map_congr_left ih)
  | map entries ih =>
      -- Keys and values are the items of one list on both sides.
      rw [Value.formula, value, eval, listEval_eq_map, Value.entriesFormula_eq_flatMap,
        entriesValue_eq_flatMap, List.map_flatMap]
      refine congrArg (M.call _) (List.flatMap_congr fun e he => ?_)
      rw [List.map_cons, List.map_cons, List.map_nil, (ih e he).1, (ih e he).2]
  | null => exact M.eval_ofNumeral (Value.sql .null)
  | bool b => exact M.eval_ofNumeral _
  | int n => exact M.eval_ofNumeral _
  | uint n => exact M.eval_ofNumeral _
  | float x => exact M.eval_ofNumeral _
  | decimal d => exact M.eval_ofNumeral _
  | string s => rfl
  | date d => rfl
  | dateTime t => rfl
  | uuid u => rfl
  | ipv4 a => rfl
  | ipv6 a => rfl
  | enum name => rfl
  | json j => rfl

end Meaning

/-! ## Whole numbers -/

/-- What a meaning in whole numbers leaves open. -/
structure Assignment where
  /-- A constant without quotes. -/
  word : List Char → Int
  /-- A quoted string. -/
  text : List Char → Int
  /-- A field. -/
  field : List Char → Int
  /-- A raw text. -/
  raw : List Char → Int
  /-- A function. -/
  call : List Char → List Int → Int
  /-- Items in square brackets. -/
  array : List Int → Int
  /-- Items in round brackets, if there is not exactly one. -/
  list : List Int → Int
  /-- An operator that compares a value with a pattern, a list or a range. -/
  matching : BinaryOp → Int → Int → Int

/-- A truth value as a number. -/
def truth (b : Bool) : Int :=
  if b then 1 else 0

/-- Items in round brackets. One item is grouped by them. -/
def Assignment.grouped (σ : Assignment) : List Int → Int
  | [x] => x
  | xs => σ.list xs

/-- An operator on whole numbers, with every number but zero for true. -/
def Assignment.binary (σ : Assignment) : BinaryOp → Int → Int → Int
  | .eq, x, y => truth (x = y)
  | .ne, x, y => truth (x ≠ y)
  | .lt, x, y => truth (x < y)
  | .le, x, y => truth (x ≤ y)
  | .gt, x, y => truth (x > y)
  | .ge, x, y => truth (x ≥ y)
  | .and, x, y => truth (x ≠ 0 ∧ y ≠ 0)
  | .or, x, y => truth (x ≠ 0 ∨ y ≠ 0)
  | .add, x, y => x + y
  | .sub, x, y => x - y
  | .mul, x, y => x * y
  | .div, x, y => x.tdiv y
  | .mod, x, y => x.tmod y
  | op, x, y => σ.matching op x y

theorem truth_ne_zero (b : Bool) : truth b ≠ 0 ↔ b = true := by
  cases b <;> decide

/-- The meaning in whole numbers, with conditions as truth values, and with
    quotients and remainders that are cut off towards zero. -/
def Assignment.integers (σ : Assignment) : Meaning Int where
  word := σ.word
  text := σ.text
  name := σ.field
  raw := σ.raw
  call := σ.call
  array := σ.array
  list := σ.grouped
  unary
    | .not, x => truth (x = 0)
    | .neg, x => -x
  binary := σ.binary
  range x lo hi := truth (lo ≤ x ∧ x ≤ hi)
  list_one _ := rfl
  or_or x y z := by
    simp only [Assignment.binary, truth_ne_zero, decide_eq_true_eq, or_assoc]
  and_and x y z := by
    simp only [Assignment.binary, truth_ne_zero, decide_eq_true_eq, and_assoc]
  add_add x y z := (Int.add_assoc x y z).symm
  add_sub x y z := (Int.add_sub_assoc x y z).symm
  mul_mul x y z := (Int.mul_assoc x y z).symm

end Grammar

end ColumnStore
