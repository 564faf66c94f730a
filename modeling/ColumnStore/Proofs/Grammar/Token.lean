import ColumnStore.Expr.Operator
import ColumnStore.Proofs.Lexical.Expression

/-!
# Tokens of Conditions

The pieces of a text grouped into the tokens of the language of conditions.
Outside quotes a longest run of word characters is one token, a blank is none,
and any other character is one by itself. A word directly before an opening
bracket is the name of a function, like an inserted one.

`Spells` relates pieces to their tokens whatever follows them, as long as what
follows does not go on with the word at their end. It is stated this way so that
the tokens of a text can be put together from those of its parts.

## Main definitions

* `Token`: A token.
* `tokenize`: The tokens of pieces.
* `Spells`: Pieces have some tokens, whatever follows them.
* `symbolTokens`: The tokens of a binary operator.

## Theorems

* `spells_word`: A word is one token.
* `spells_blank`, `spells_mark`: Parts joined by a blank or by a mark.
* `spells_separated`: Items with commas between them.
* `spells_symbol`: An operator has its tokens.
-/

namespace ColumnStore

namespace Grammar

open Lexical

/-- A token of the language of conditions. -/
inductive Token
  /-- A word. -/
  | word (w : List Char)
  /-- The name of a function. -/
  | function (f : List Char)
  /-- Another character. -/
  | mark (c : Char)
  /-- A quoted string. -/
  | quoted (s : List Char)
  /-- A quoted name. -/
  | named (s : List Char)
  /-- A raw text. -/
  | verbatim (s : List Char)
  deriving DecidableEq

/-- The token of a run of word characters, if there is a run, before others. -/
def flush (run : List Char) (ts : List Token) : List Token :=
  if run = [] then ts else .word run :: ts

/-- The tokens of pieces after a run of word characters. -/
def tokenizeFrom : List Char → List Piece → List Token
  | run, [] => flush run []
  | run, .plain c :: ps =>
    if isWordChar c then tokenizeFrom (run ++ [c]) ps
    else if c = '(' ∧ run ≠ [] then .function run :: .mark '(' :: tokenizeFrom [] ps
    else flush run (if Text.isBlank c then tokenizeFrom [] ps else .mark c :: tokenizeFrom [] ps)
  | run, .quoted s :: ps => flush run (.quoted s :: tokenizeFrom [] ps)
  | run, .named s :: ps => flush run (.named s :: tokenizeFrom [] ps)
  | run, .verbatim s :: ps => flush run (.verbatim s :: tokenizeFrom [] ps)
  | run, .function f :: ps => flush run (.function f :: tokenizeFrom [] ps)

/-- The tokens of pieces. -/
def tokenize (ps : List Piece) : List Token :=
  tokenizeFrom [] ps

/-- What follows does not go on with a word, nor makes it a function. -/
def Ends (ps : List Piece) : Prop :=
  ∀ c, ps.head? = some (.plain c) → isWordChar c = false ∧ c ≠ '('

/-- Pieces have some tokens, whatever follows them. -/
def Spells (ps : List Piece) (ts : List Token) : Prop :=
  ∀ rest, Ends rest → tokenize (ps ++ rest) = ts ++ tokenize rest

/-- Tokens with a comma between neighbours. -/
def commaTokens (items : List (List Token)) : List Token :=
  [.mark ','].intercalate items

/-- The tokens of a binary operator. -/
def symbolTokens : BinaryOp → List Token
  | .eq => [.mark '=']
  | .ne => [.mark '!', .mark '=']
  | .lt => [.mark '<']
  | .le => [.mark '<', .mark '=']
  | .gt => [.mark '>']
  | .ge => [.mark '>', .mark '=']
  | .and => [.word "AND".toList]
  | .or => [.word "OR".toList]
  | .isIn => [.word "IN".toList]
  | .notIn => [.word "NOT".toList, .word "IN".toList]
  | .like => [.word "LIKE".toList]
  | .notLike => [.word "NOT".toList, .word "LIKE".toList]
  | .ilike => [.word "ILIKE".toList]
  | .between => [.word "BETWEEN".toList]
  | .add => [.mark '+']
  | .sub => [.mark '-']
  | .mul => [.mark '*']
  | .div => [.mark '/']
  | .mod => [.mark '%']

/-! ## Words -/

/-- A run of word characters goes on with the word characters after it. -/
theorem tokenizeFrom_plains (run w : List Char) (h : ∀ c ∈ w, isWordChar c = true)
    (rest : List Piece) :
    tokenizeFrom run (plains w ++ rest) = tokenizeFrom (run ++ w) rest := by
  induction w generalizing run with
  | nil => simp [plains]
  | cons c w ih =>
      -- The first character goes on with the run, and the others with what that makes.
      have hc := h c List.mem_cons_self
      have hw := ih (run ++ [c]) fun d hd => h d (List.mem_cons_of_mem c hd)
      change tokenizeFrom run (.plain c :: (plains w ++ rest)) = _
      rw [tokenizeFrom, if_pos hc, hw, List.append_assoc, List.singleton_append]

/-- A run that nothing goes on with is one word. -/
theorem tokenizeFrom_of_ends {run : List Char} (hrun : run ≠ []) {rest : List Piece}
    (h : Ends rest) : tokenizeFrom run rest = .word run :: tokenize rest := by
  match rest with
  | [] => simp [tokenizeFrom, tokenize, flush, hrun]
  | .plain c :: ps =>
      rcases h c rfl with ⟨hword, hopen⟩
      simp [tokenizeFrom, tokenize, flush, hrun, hword, hopen]
  | .quoted s :: ps => simp [tokenizeFrom, tokenize, flush, hrun]
  | .named s :: ps => simp [tokenizeFrom, tokenize, flush, hrun]
  | .verbatim s :: ps => simp [tokenizeFrom, tokenize, flush, hrun]
  | .function f :: ps => simp [tokenizeFrom, tokenize, flush, hrun]

theorem ends_cons {c : Char} (hword : isWordChar c = false) (hopen : c ≠ '(') (ps : List Piece) :
    Ends (.plain c :: ps) := by
  intro d hd
  rw [List.head?_cons, Option.some.injEq, Piece.plain.injEq] at hd
  rw [← hd]
  exact ⟨hword, hopen⟩

theorem tokenize_blank (rest : List Piece) :
    tokenize (.plain ' ' :: rest) = tokenize rest := by
  simp [tokenize, tokenizeFrom, isWordChar, Text.isBlank, flush]

/-- A character that is neither part of a word nor blank is a token. -/
theorem tokenize_mark {c : Char} (hword : isWordChar c = false) (hblank : Text.isBlank c = false)
    (rest : List Piece) : tokenize (.plain c :: rest) = .mark c :: tokenize rest := by
  simp [tokenize, tokenizeFrom, hword, hblank, flush]

/-! ## Spelling -/

theorem spells_nil : Spells [] [] :=
  fun _ _ => rfl

theorem spells_word {w : List Char} (hne : w ≠ []) (h : w.all isWordChar = true) :
    Spells (plains w) [.word w] := by
  intro rest hrest
  have hrun := tokenizeFrom_plains [] w (List.all_eq_true.1 h) rest
  rw [tokenize, hrun, List.nil_append, tokenizeFrom_of_ends hne hrest]
  rfl

theorem spells_quoted (s : List Char) : Spells [.quoted s] [.quoted s] :=
  fun _ _ => rfl

theorem spells_named (s : List Char) : Spells [.named s] [.named s] :=
  fun _ _ => rfl

theorem spells_verbatim (s : List Char) : Spells [.verbatim s] [.verbatim s] :=
  fun _ _ => rfl

theorem spells_blank {ps qs : List Piece} {ts us : List Token} (hp : Spells ps ts)
    (hq : Spells qs us) : Spells (ps ++ .plain ' ' :: qs) (ts ++ us) := by
  intro rest hrest
  rw [List.append_assoc, List.cons_append, hp _ (ends_cons (by decide) (by decide) _),
    tokenize_blank, hq rest hrest, List.append_assoc]

theorem spells_mark {ps qs : List Piece} {ts us : List Token} {c : Char}
    (hword : isWordChar c = false) (hblank : Text.isBlank c = false) (hopen : c ≠ '(')
    (hp : Spells ps ts) (hq : Spells qs us) :
    Spells (ps ++ .plain c :: qs) (ts ++ .mark c :: us) := by
  intro rest hrest
  rw [List.append_assoc, List.cons_append, hp _ (ends_cons hword hopen _),
    tokenize_mark hword hblank, hq rest hrest, List.append_assoc, List.cons_append]

/-- A part after a mark. Nothing stands before it, so an opening bracket is a
    mark like any other. -/
theorem spells_cons_mark {qs : List Piece} {us : List Token} {c : Char}
    (hword : isWordChar c = false) (hblank : Text.isBlank c = false) (hq : Spells qs us) :
    Spells (.plain c :: qs) (.mark c :: us) := by
  intro rest hrest
  rw [List.cons_append, tokenize_mark hword hblank, hq rest hrest, List.cons_append]

theorem spells_enclosed {ps : List Piece} {ts : List Token} (h : Spells ps ts) :
    Spells (enclosed ps) (.mark '(' :: (ts ++ [.mark ')'])) :=
  spells_cons_mark (by decide) (by decide)
    (spells_mark (by decide) (by decide) (by decide) h spells_nil)

/-- A word directly before an opening bracket is the name of a function. -/
theorem spells_word_enclosed {w : List Char} (hne : w ≠ []) (h : w.all isWordChar = true)
    {ps : List Piece} {ts : List Token} (hp : Spells ps ts) :
    Spells (plains w ++ enclosed ps) (.function w :: .mark '(' :: (ts ++ [.mark ')'])) := by
  intro rest hrest
  have hbody := spells_enclosed hp rest hrest
  have hrun := tokenizeFrom_plains [] w (List.all_eq_true.1 h) (enclosed ps ++ rest)
  change tokenize (.plain '(' :: ((ps ++ [.plain ')']) ++ rest)) = _ at hbody
  rw [tokenize_mark (by decide) (by decide)] at hbody
  rw [List.append_assoc, tokenize, hrun, List.nil_append]
  -- The run is not empty where the bracket comes, which makes it a function.
  change tokenizeFrom w (.plain '(' :: ((ps ++ [.plain ')']) ++ rest)) = _
  rw [tokenizeFrom, if_neg (by decide), if_pos ⟨rfl, hne⟩]
  exact congrArg (Token.function w :: ·) hbody

theorem spells_function_enclosed (f : List Char) {ps : List Piece} {ts : List Token}
    (hp : Spells ps ts) :
    Spells (.function f :: enclosed ps) (.function f :: .mark '(' :: (ts ++ [.mark ')'])) := by
  intro rest hrest
  exact congrArg (Token.function f :: ·) (spells_enclosed hp rest hrest)

theorem commaTokens_cons_cons (x y : List Token) (r : List (List Token)) :
    commaTokens (x :: y :: r) = x ++ .mark ',' :: commaTokens (y :: r) := by
  simp [commaTokens, List.intercalate]

/-- Items with commas between them. -/
theorem spells_separated {α : Type} {pieces : α → List Piece} {tokens : α → List Token}
    {items : List α} (h : ∀ x ∈ items, Spells (pieces x) (tokens x)) :
    Spells (separated (items.map pieces)) (commaTokens (items.map tokens)) := by
  match items with
  | [] => exact spells_nil
  | [x] =>
      have hx := h x (by simp)
      simpa [separated, commaTokens, List.intercalate] using hx
  | x :: y :: r =>
      have hrest := spells_separated fun z hz => h z (List.mem_cons_of_mem x hz)
      simp only [List.map_cons] at hrest ⊢
      rw [separated_cons_cons, commaTokens_cons_cons]
      -- The blank after the comma is no token.
      exact spells_mark (by decide) (by decide) (by decide) (h x (by simp))
        (spells_blank spells_nil hrest)

/-- An operator has its tokens. -/
theorem spells_symbol (op : BinaryOp) : Spells (plains op.symbol.toList) (symbolTokens op) := by
  have hword : ∀ w : List Char, w ≠ [] → w.all isWordChar = true →
      Spells (plains w) [.word w] := fun _ => spells_word
  have htwo : ∀ a b : Char, (isWordChar a = false ∧ Text.isBlank a = false) →
      (isWordChar b = false ∧ Text.isBlank b = false) →
      Spells [.plain a, .plain b] [.mark a, .mark b] := fun a b ha hb =>
    spells_cons_mark ha.1 ha.2 (spells_cons_mark hb.1 hb.2 spells_nil)
  cases op
  case and | or | isIn | like | ilike | between => exact hword _ (by decide) (by decide)
  case notIn =>
      exact spells_blank (hword "NOT".toList (by decide) (by decide))
        (hword "IN".toList (by decide) (by decide))
  case notLike =>
      exact spells_blank (hword "NOT".toList (by decide) (by decide))
        (hword "LIKE".toList (by decide) (by decide))
  case ne | le | ge => exact htwo _ _ (by decide) (by decide)
  case eq | lt | gt | add | sub | mul | div | mod =>
      exact spells_cons_mark (by decide) (by decide) spells_nil

theorem spells_joined (op : BinaryOp) {left right : List Piece} {ts us : List Token}
    (hl : Spells left ts) (hr : Spells right us) :
    Spells (joined op.symbol left right) (ts ++ (symbolTokens op ++ us)) :=
  spells_blank hl (spells_blank (spells_symbol op) hr)

end Grammar

end ColumnStore
