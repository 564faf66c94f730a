import ColumnStore.Proofs.Grammar.Formula

/-!
# Reading Conditions

The grammar of conditions and its reader. What is documented of the language is
how strongly its operators bind, which gives one level for each strength:

    level 0   a whole text, or an item of a list: a raw text, or level 1
    level 1   OR
    level 2   AND
    level 3   NOT
    level 4   = != < <= > >= IN, NOT IN, LIKE, NOT LIKE, ILIKE, BETWEEN ... AND ...
    level 5   + -
    level 6   * / %
    level 7   minus
    level 8   constants, names, calls, and whatever stands in brackets

An operator between two operands groups to the left: its left operand is of its
own level, its right one of the next. The bounds of a range are of the level
after the comparisons, so that the `AND` between them is not mistaken for the
operator. A raw text is an operand in brackets only, or an item.

`Conforms` is the grammar as a relation, and `read?` the reader. The reader
descends level by level and gathers the operators of a level in a loop. Its fuel
is a bound on the number of its calls and comes from the number of tokens.

## Main definitions

* `levelOperators`, `levelSign?`: The operators of a level.
* `readLevel`, `readChain`, `readOperand`, `readItems`: The parts of the reader.
* `readTokens?`, `read?`: The formula of some tokens, and of a text.
* `Conforms`: A formula follows the grammar at a level.
* `Stops`: No operator of a level or of a later one stands at the front.

## Theorems

* `operator?_symbolTokens`: An operator is found at its level.
* `stops_symbolTokens`: An operator is not found at a later level.
-/

namespace ColumnStore

namespace Grammar

open Lexical

/-- The operators of a level between two operands. One whose tokens start with
    those of another stands before it. -/
def levelOperators : Nat → List BinaryOp
  | 1 => [.or]
  | 2 => [.and]
  | 4 => [.ne, .le, .ge, .eq, .lt, .gt, .notIn, .notLike, .isIn, .like, .ilike, .between]
  | 5 => [.add, .sub]
  | 6 => [.mul, .div, .mod]
  | _ => []

/-- The operator of a level before its operand. -/
def levelSign? : Nat → Option UnaryOp
  | 3 => some .not
  | 7 => some .neg
  | _ => none

/-- What follows some tokens at the front of others. -/
def strip? (front ts : List Token) : Option (List Token) :=
  if front.isPrefixOf ts then some (ts.drop front.length) else none

/-- A raw text at the front of some tokens, and what follows it. -/
def verbatim? : List Token → Option (List Char × List Token)
  | .verbatim s :: r => some (s, r)
  | _ => none

/-- The operator of a level at the front of some tokens, and what follows it. -/
def operator? (level : Nat) (ts : List Token) : Option (BinaryOp × List Token) :=
  (levelOperators level).findSome? fun op => (strip? (symbolTokens op) ts).map (op, ·)

mutual

/-- A formula of a level at the front of some tokens, and what follows it. -/
def readLevel : Nat → Nat → List Token → Option (Formula × List Token)
  | 0, _, _ => none
  | n + 1, level, ts =>
    if level = 0 then
      match verbatim? ts with
      | some (s, r) => some (.raw s, r)
      | none => readLevel n 1 ts
    else if level = 8 then readOperand n ts
    else
      match levelSign? level with
      | some op =>
        match strip? [Formula.unaryToken op] ts with
        | some r => (readLevel n level r).map fun (x, r) => (.unary op x, r)
        | none => readLevel n (level + 1) ts
      | none => (readLevel n (level + 1) ts).bind fun (x, r) => readChain n level x r

/-- The operators of a level that follow a formula, with their operands. -/
def readChain : Nat → Nat → Formula → List Token → Option (Formula × List Token)
  | 0, _, _, _ => none
  | n + 1, level, x, ts =>
    match operator? level ts with
    | none => some (x, ts)
    | some (op, r) =>
      if op = .between then
        (readLevel n (level + 1) r).bind fun (lo, r) =>
          (strip? (symbolTokens .and) r).bind fun r =>
            (readLevel n (level + 1) r).bind fun (hi, r) => readChain n level (.range x lo hi) r
      else
        (readLevel n (level + 1) r).bind fun (y, r) => readChain n level (.binary op x y) r

/-- A formula that no operator can take apart. -/
def readOperand : Nat → List Token → Option (Formula × List Token)
  | 0, _ => none
  | n + 1, ts =>
    match ts with
    | .word w :: r => if w ∈ keywords then none else some (.word w, r)
    | .quoted s :: r => some (.text s, r)
    | .named s :: r => some (.name s, r)
    | .function f :: .mark '(' :: r => (readItems n ')' r).map fun (xs, r) => (.call f xs, r)
    | .mark '(' :: r => (readItems n ')' r).map fun (xs, r) => (.list xs, r)
    | .mark '[' :: r => (readItems n ']' r).map fun (xs, r) => (.array xs, r)
    | _ => none

/-- Items with commas between them up to a closing mark, perhaps none. -/
def readItems : Nat → Char → List Token → Option (List Formula × List Token)
  | 0, _, _ => none
  | n + 1, closing, ts =>
    match strip? [.mark closing] ts with
    | some r => some ([], r)
    | none => readSomeItems n closing ts

/-- One item or more up to a closing mark. -/
def readSomeItems : Nat → Char → List Token → Option (List Formula × List Token)
  | 0, _, _ => none
  | n + 1, closing, ts =>
    (readLevel n 0 ts).bind fun (x, r) =>
      match strip? [.mark ','] r with
      | some r => (readSomeItems n closing r).map fun (xs, r) => (x :: xs, r)
      | none => (strip? [.mark closing] r).map fun r => ([x], r)

end

/-- The formula of some tokens. -/
def readTokens? (ts : List Token) : Option Formula :=
  match readLevel (16 * ts.length + 16) 0 ts with
  | some (x, []) => some x
  | _ => none

/-- The formula of a text. A text with a comment in it has none. -/
def read? (text : List Symbol) : Option Formula :=
  (scan text).bind fun ps => if CommentFree ps then readTokens? (tokenize ps) else none

/-- A formula follows the grammar at a level. -/
inductive Conforms : Nat → Formula → Prop
  /-- A raw text is a whole text or an item. -/
  | raw (s : List Char) : Conforms 0 (.raw s)
  /-- What binds more strongly may stand where less is asked for. -/
  | next {level : Nat} {x : Formula} (hlevel : level < 8) (hx : Conforms (level + 1) x) :
      Conforms level x
  /-- An operator before an operand of its level. -/
  | unary {level : Nat} {op : UnaryOp} {x : Formula} (hop : levelSign? level = some op)
      (hx : Conforms level x) : Conforms level (.unary op x)
  /-- An operator groups to the left. -/
  | binary {level : Nat} {op : BinaryOp} {l r : Formula} (hop : op ∈ levelOperators level)
      (hne : op ≠ .between) (hl : Conforms level l) (hr : Conforms (level + 1) r) :
      Conforms level (.binary op l r)
  /-- A range groups to the left, with bounds that no comparison is part of. -/
  | range {x lo hi : Formula} (hx : Conforms 4 x) (hlo : Conforms 5 lo) (hhi : Conforms 5 hi) :
      Conforms 4 (.range x lo hi)
  /-- A constant is no word of the language. -/
  | word {w : List Char} (h : w ∉ keywords) : Conforms 8 (.word w)
  /-- A string. -/
  | text (s : List Char) : Conforms 8 (.text s)
  /-- A name. -/
  | name (s : List Char) : Conforms 8 (.name s)
  /-- A call has items for arguments. -/
  | call (f : List Char) {arguments : List Formula} (h : ∀ x ∈ arguments, Conforms 0 x) :
      Conforms 8 (.call f arguments)
  /-- Items in square brackets. -/
  | array {items : List Formula} (h : ∀ x ∈ items, Conforms 0 x) : Conforms 8 (.array items)
  /-- Items in round brackets. -/
  | list {items : List Formula} (h : ∀ x ∈ items, Conforms 0 x) : Conforms 8 (.list items)

/-! ## Operators at the front of tokens -/

theorem strip?_append (front ts : List Token) : strip? front (front ++ ts) = some ts := by
  simp [strip?]

theorem strip?_singleton (t : Token) (ts : List Token) : strip? [t] (t :: ts) = some ts :=
  strip?_append [t] ts

theorem strip?_singleton_of_ne {t u : Token} (h : t ≠ u) (ts : List Token) :
    strip? [u] (t :: ts) = none := by
  simp [strip?, Ne.symm h]

/-- No operator is found where none of its level starts like the tokens. -/
theorem operator?_eq_none {level : Nat} {t : Token}
    (h : ∀ op ∈ levelOperators level, (symbolTokens op).head? ≠ some t) (ts : List Token) :
    operator? level (t :: ts) = none := by
  refine List.findSome?_eq_none_iff.2 fun op hop => ?_
  have hhead := h op hop
  cases htokens : symbolTokens op with
  | nil => cases op <;> cases htokens
  | cons u us =>
      rw [htokens, List.head?_cons, ne_eq, Option.some.injEq] at hhead
      simp [strip?, hhead]

theorem lt_seven_of_mem {k : Nat} {op : BinaryOp} (h : op ∈ levelOperators k) : k < 7 := by
  by_contra hge
  rcases Nat.exists_eq_add_of_le' (Nat.le_of_not_lt hge) with ⟨n, rfl⟩
  simp [levelOperators] at h

/-- Operators of two levels start differently. -/
theorem head_symbolTokens_ne {j k : Nat} (hjk : j < k) {op other : BinaryOp}
    (hop : op ∈ levelOperators j) (hother : other ∈ levelOperators k) :
    (symbolTokens other).head? ≠ (symbolTokens op).head? := by
  -- Only levels below the seventh have operators, so that a table decides.
  have htable : ∀ j k : Fin 7, j < k → ∀ op ∈ levelOperators j, ∀ other ∈ levelOperators k,
      (symbolTokens other).head? ≠ (symbolTokens op).head? := by
    decide
  exact htable ⟨j, lt_seven_of_mem hop⟩ ⟨k, lt_seven_of_mem hother⟩ hjk op hop other hother

/-- An operator is found at its level. -/
theorem operator?_symbolTokens {level : Nat} {op : BinaryOp} (hop : op ∈ levelOperators level)
    {t : Token} (ht : t ≠ .mark '=') (ts : List Token) :
    operator? level (symbolTokens op ++ t :: ts) = some (op, t :: ts) := by
  match level with
  | 0 | 3 | n + 7 => simp [levelOperators] at hop
  | 1 | 2 | 4 | 5 | 6 =>
    -- The token after it is no `=`, or `<` would be found where `<=` stands.
    cases op <;> first
      | exact absurd hop (by decide)
      | simp [levelOperators, operator?, symbolTokens, strip?, ht.symm]

/-- No operator of a level, or of a later one, stands at the front. -/
def Stops (level : Nat) (ts : List Token) : Prop :=
  ∀ l, level ≤ l → operator? l ts = none

theorem Stops.mono {j k : Nat} {ts : List Token} (h : Stops j ts) (hjk : j ≤ k) : Stops k ts :=
  fun l hl => h l (Nat.le_trans hjk hl)

/-- An operator is not found at any level after its own. -/
theorem stops_symbolTokens {level : Nat} {op : BinaryOp} (hop : op ∈ levelOperators level)
    (ts : List Token) : Stops (level + 1) (symbolTokens op ++ ts) := by
  intro l hl
  cases htokens : symbolTokens op with
  | nil => cases op <;> cases htokens
  | cons t us =>
      refine operator?_eq_none (fun other hother => ?_) _
      have hne := head_symbolTokens_ne (Nat.lt_of_succ_le hl) hop hother
      rwa [htokens, List.head?_cons] at hne

theorem stops_nil : Stops 0 [] := by
  intro l _
  refine List.findSome?_eq_none_iff.2 fun op _ => ?_
  cases op <;> rfl

theorem stops_mark {c : Char} (h : c = ',' ∨ c = ')' ∨ c = ']') (ts : List Token) :
    Stops 0 (.mark c :: ts) := by
  intro l _
  refine operator?_eq_none (fun op _ => ?_) ts
  rcases h with rfl | rfl | rfl <;> cases op <;> decide

end Grammar

end ColumnStore
