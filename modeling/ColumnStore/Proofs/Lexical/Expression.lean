import ColumnStore.Proofs.Expr.Shape
import ColumnStore.Proofs.Lexical.Pieces
import ColumnStore.Proofs.Lexical.Words

/-!
# Pieces of Expressions

The pieces of which the text of a value and of an expression consists. Strings,
dates, addresses, documents and names of an enumeration are one quoted piece
each, names of fields one named piece, and raw texts and names of functions one
insertion each; everything else is characters outside quotes.

The text of an expression never opens a comment. The one place where it could
is a minus sign before an operand that starts with another one, which is why
such an operand is put into brackets.

## Main definitions

* `textOf`: The text of pieces.
* `separated`, `enclosed`, `joined`: How pieces are put together.
* `Value.pieces`, `Expr.pieces`: The pieces of a value and of an expression.

## Theorems

* `textOf_pieces`: The pieces of an expression are its text.
* `clean_pieces`: The pieces of an expression are clean.
-/

namespace ColumnStore

namespace Lexical

/-- The text of pieces. -/
def textOf (ps : List Piece) : List Char :=
  ps.flatMap Piece.text

/-- Pieces with a comma and a blank between neighbours. -/
def separated (items : List (List Piece)) : List Piece :=
  [.plain ',', .plain ' '].intercalate items

/-- Pieces in round brackets. -/
def enclosed (ps : List Piece) : List Piece :=
  .plain '(' :: (ps ++ [.plain ')'])

/-- Pieces, in brackets if so wanted. -/
def enclosedIf (wanted : Bool) (ps : List Piece) : List Piece :=
  if wanted then enclosed ps else ps

/-- Pieces with a blank on both sides of a word between them. -/
def joined (word : String) (left right : List Piece) : List Piece :=
  left ++ .plain ' ' :: (plains word.toList ++ .plain ' ' :: right)

/-- The pieces of an array, from those of its items. -/
def arrayPieces (items : List (List Piece)) : List Piece :=
  .plain '[' :: (separated items ++ [.plain ']'])

/-- The pieces of a tuple, from those of its items. -/
def tuplePieces (items : List (List Piece)) : List Piece :=
  if items.length = 1 then plains "tuple".toList ++ enclosed (separated items)
  else enclosed (separated items)

/-- The pieces of a map, from those of its keys and values in turn. -/
def mapPieces (items : List (List Piece)) : List Piece :=
  plains "map".toList ++ enclosed (separated items)

/-- An operator before the pieces of its operand. -/
def unaryPieces (op : UnaryOp) (operand : List Piece) : List Piece :=
  match op with
  | .not => plains "NOT".toList ++ .plain ' ' :: operand
  | .neg => .plain '-' :: enclosedIf ((textOf operand).head? = some '-') operand

end Lexical

open Lexical

namespace Value

mutual

/-- The pieces of a value. -/
def pieces : Value → List Piece
  | null => plains (sql null)
  | bool b => plains (sql (bool b))
  | int n => plains (sql (int n))
  | uint n => plains (sql (uint n))
  | float x => plains (sql (float x))
  | decimal d => plains (sql (decimal d))
  | string s => [.quoted s.toList]
  | date d => [.quoted d.text]
  | dateTime t => [.quoted t.text]
  | uuid u => [.quoted u.text]
  | ipv4 a => [.quoted a.text]
  | ipv6 a => [.quoted a.text]
  | enum name => [.quoted name.toList]
  | array items => arrayPieces (listPieces items)
  | tuple items => tuplePieces (listPieces items)
  | map entries => mapPieces (entriesPieces entries)
  | json j => [.quoted j.text]

/-- The pieces of each value of a list. -/
def listPieces : List Value → List (List Piece)
  | [] => []
  | x :: xs => pieces x :: listPieces xs

/-- The pieces of keys and values in turn. -/
def entriesPieces : List (Value × Value) → List (List Piece)
  | [] => []
  | (k, x) :: xs => pieces k :: pieces x :: entriesPieces xs

end

end Value

namespace Expr

mutual

/-- The pieces of an expression. -/
def pieces : Expr → List Piece
  | literal v => v.pieces
  | field name => [.named name.toList]
  | raw s => [.verbatim s.toList]
  | list items => enclosed (separated (listPieces items))
  | call f arguments => .function f.toList :: enclosed (separated (listPieces arguments))
  | unary op e => unaryPieces op (enclosedIf (e.needsBrackets op.precedence) (pieces e))
  | binary .between l (list [lo, hi]) =>
    joined BinaryOp.between.symbol
      (enclosedIf (l.needsBrackets BinaryOp.between.precedence) (pieces l))
      (joined BinaryOp.and.symbol
        (enclosedIf (lo.needsBracketsRight .between) (pieces lo))
        (enclosedIf (hi.needsBracketsRight .between) (pieces hi)))
  | binary op l r =>
    joined op.symbol
      (enclosedIf (l.needsBrackets op.precedence) (pieces l))
      (enclosedIf (r.needsBracketsRight op) (pieces r))

/-- The pieces of each expression of a list. -/
def listPieces : List Expr → List (List Piece)
  | [] => []
  | e :: es => pieces e :: listPieces es

end

end Expr

namespace Lexical

/-! ## Text -/

@[simp]
theorem textOf_nil : textOf [] = [] :=
  rfl

@[simp]
theorem textOf_cons (p : Piece) (ps : List Piece) : textOf (p :: ps) = p.text ++ textOf ps :=
  List.flatMap_cons

@[simp]
theorem textOf_append (ps qs : List Piece) : textOf (ps ++ qs) = textOf ps ++ textOf qs :=
  List.flatMap_append

@[simp]
theorem textOf_plains (s : List Char) : textOf (plains s) = s := by
  induction s with
  | nil => rfl
  | cons c s ih =>
      change textOf (.plain c :: plains s) = c :: s
      rw [textOf_cons, ih]
      rfl

@[simp]
theorem textOf_enclosed (ps : List Piece) : textOf (enclosed ps) = bracketed (textOf ps) := by
  simp [enclosed, bracketed, Piece.text]

@[simp]
theorem textOf_enclosedIf (wanted : Bool) (ps : List Piece) :
    textOf (enclosedIf wanted ps) = Expr.bracketedIf wanted (textOf ps) := by
  cases wanted
  · rfl
  · exact textOf_enclosed ps

@[simp]
theorem textOf_joined (word : String) (left right : List Piece) :
    textOf (joined word left right) = Expr.joinedBy word (textOf left) (textOf right) := by
  simp [joined, Expr.joinedBy, Piece.text]

theorem separated_cons_cons (x y : List Piece) (r : List (List Piece)) :
    separated (x :: y :: r) = x ++ .plain ',' :: .plain ' ' :: separated (y :: r) := by
  simp [separated, List.intercalate]

@[simp]
theorem textOf_separated (items : List (List Piece)) :
    textOf (separated items) = commaSeparated (items.map textOf) := by
  match items with
  | [] => rfl
  | [x] => simp [separated, commaSeparated, List.intercalate]
  | x :: y :: r =>
      rw [separated_cons_cons, textOf_append, textOf_cons, textOf_cons,
        textOf_separated (y :: r), List.map_cons, List.map_cons, List.map_cons,
        commaSeparated_cons_cons]
      rfl

theorem textOf_arrayPieces (items : List (List Piece)) :
    textOf (arrayPieces items) = arrayLiteral (items.map textOf) := by
  simp [arrayPieces, arrayLiteral, Piece.text]

theorem textOf_tuplePieces (items : List (List Piece)) :
    textOf (tuplePieces items) = tupleLiteral (items.map textOf) := by
  by_cases h : items.length = 1
  · simp [tuplePieces, tupleLiteral, h, bracketed]
  · simp [tuplePieces, tupleLiteral, h, bracketed]

theorem textOf_mapPieces (items : List (List Piece)) :
    textOf (mapPieces items) = mapLiteral (items.map textOf) := by
  simp [mapPieces, mapLiteral, bracketed]

theorem textOf_unaryPieces (op : UnaryOp) (operand : List Piece) :
    textOf (unaryPieces op operand) = Expr.unarySql op (textOf operand) := by
  cases op <;> simp [unaryPieces, Expr.unarySql, Piece.text]

end Lexical

namespace Value

theorem listPieces_eq_map (vs : List Value) : listPieces vs = vs.map pieces := by
  induction vs with
  | nil => rfl
  | cons v vs ih => rw [listPieces, ih, List.map_cons]

theorem entriesPieces_eq_flatMap (entries : List (Value × Value)) :
    entriesPieces entries = entries.flatMap fun e => [pieces e.1, pieces e.2] := by
  induction entries with
  | nil => rfl
  | cons e es ih =>
      rcases e with ⟨k, x⟩
      rw [entriesPieces, ih]
      rfl

/-- The pieces of a value are its text. -/
theorem textOf_pieces (v : Value) : textOf v.pieces = v.sql := by
  induction v using Value.mem_induction with
  | array items ih =>
      rw [pieces, textOf_arrayPieces, sql, listPieces_eq_map, listSql_eq_map, List.map_map]
      exact congrArg arrayLiteral (List.map_congr_left ih)
  | tuple items ih =>
      rw [pieces, textOf_tuplePieces, sql, listPieces_eq_map, listSql_eq_map, List.map_map]
      exact congrArg tupleLiteral (List.map_congr_left ih)
  | map entries ih =>
      rw [pieces, textOf_mapPieces, sql, entriesPieces_eq_flatMap, entriesSql_eq_flatMap,
        List.map_flatMap]
      refine congrArg mapLiteral (List.flatMap_congr fun e he => ?_)
      rw [List.map_cons, List.map_cons, List.map_nil, (ih e he).1, (ih e he).2]
  | null => exact textOf_plains _
  | bool b => exact textOf_plains _
  | int n => exact textOf_plains _
  | uint n => exact textOf_plains _
  | float x => exact textOf_plains _
  | decimal d => exact textOf_plains _
  | string s => simp [pieces, sql, Piece.text]
  | date d => simp [pieces, sql, Piece.text]
  | dateTime t => simp [pieces, sql, Piece.text]
  | uuid u => simp [pieces, sql, Piece.text]
  | ipv4 a => simp [pieces, sql, Piece.text]
  | ipv6 a => simp [pieces, sql, Piece.text]
  | enum name => simp [pieces, sql, Piece.text]
  | json j => simp [pieces, sql, Piece.text]

end Value

namespace Expr

theorem listPieces_eq_map (es : List Expr) : listPieces es = es.map pieces := by
  induction es with
  | nil => rfl
  | cons e es ih => rw [listPieces, ih, List.map_cons]

theorem pieces_binary {op : BinaryOp} {r : Expr} (h : ¬ Ranged op r) (l : Expr) :
    pieces (binary op l r) = joined op.symbol (enclosedIf (l.needsBrackets op.precedence) l.pieces)
      (enclosedIf (r.needsBracketsRight op) r.pieces) := by
  rw [pieces]
  exact fun lo hi hop hr => h ⟨hop, lo, hi, hr⟩

/-- The pieces of an expression are its text. -/
theorem textOf_pieces (e : Expr) : textOf e.pieces = e.sql := by
  induction e using Expr.mem_induction with
  | literal v => rw [pieces, sql, Value.textOf_pieces]
  | field name => simp [pieces, sql, Piece.text]
  | raw s => simp [pieces, sql, Piece.text]
  | list items ih =>
      rw [pieces, sql, textOf_enclosed, textOf_separated, listPieces_eq_map, listSql_eq_map,
        List.map_map, ← List.map_congr_left ih]
      rfl
  | call f arguments ih =>
      rw [pieces, sql, textOf_cons, textOf_enclosed, textOf_separated, listPieces_eq_map,
        listSql_eq_map, List.map_map, ← List.map_congr_left ih]
      rfl
  | unary op e ih => rw [pieces, sql, textOf_unaryPieces, textOf_enclosedIf, ih]
  | range x lo hi hx hlo hhi =>
      rw [pieces, sql, textOf_joined, textOf_joined, textOf_enclosedIf, textOf_enclosedIf,
        textOf_enclosedIf, hx, hlo, hhi]
  | binary op l r h hl hr =>
      rw [pieces_binary h, sql_binary h, textOf_joined, textOf_enclosedIf, textOf_enclosedIf,
        hl, hr]

end Expr

namespace Lexical

/-! ## Cleanness -/

/-- The characters of words are no part of the opening of a comment. -/
theorem inert_of_isWordChar {c : Char} (h : isWordChar c = true) : inert (.plain c) = true := by
  by_contra hnot
  have hspecial : c = '-' ∨ c = '/' ∨ c = '*' ∨ c = '\x27' ∨ c = '\x60' := by
    simp only [inert, isQuote] at hnot
    grind
  rcases hspecial with rfl | rfl | rfl | rfl | rfl <;> exact absurd h (by decide)

theorem all_inert_plains {w : List Char} (h : ∀ c ∈ w, isWordChar c = true) :
    (plains w).all inert = true := by
  rw [plains, List.all_map, List.all_eq_true]
  exact fun c hc => inert_of_isWordChar (h c hc)

theorem clean_numeral {s : List Char} (h : IsNumeral s) : Clean (plains s) := by
  rcases h with ⟨w, hw, hs⟩
  have hinert := all_inert_plains hw.isWordChar
  rcases hs with rfl | rfl
  · exact clean_of_inert hinert
  · -- The sign is followed by a character of a word, so that it opens no comment.
    refine clean_cons (by simp [isQuote]) (fun q hq => ?_) (clean_of_inert hinert)
    exact opensComment_right (List.all_eq_true.1 hinert q (List.mem_of_mem_head? hq)) _

/-- A piece in quotes, or an insertion, is clean on its own. -/
theorem clean_single {p : Piece} (h : inert p = true) : Clean [p] :=
  clean_cons_inert h clean_nil

theorem clean_enclosed {ps : List Piece} (h : Clean ps) : Clean (enclosed ps) :=
  clean_cons_inert (by decide) (clean_insert h (by decide) clean_nil)

theorem clean_enclosedIf {ps : List Piece} (wanted : Bool) (h : Clean ps) :
    Clean (enclosedIf wanted ps) := by
  cases wanted
  · exact h
  · exact clean_enclosed h

theorem clean_separated {items : List (List Piece)} (h : ∀ ps ∈ items, Clean ps) :
    Clean (separated items) := by
  match items with
  | [] => exact clean_nil
  | [x] =>
      have hx := h x (by simp)
      simpa [separated, List.intercalate] using hx
  | x :: y :: r =>
      rw [separated_cons_cons]
      have hrest : Clean (separated (y :: r)) :=
        clean_separated fun ps hps => h ps (List.mem_cons_of_mem x hps)
      exact clean_insert (h x (by simp)) (by decide) (clean_cons_inert (by decide) hrest)

theorem clean_joined {word : String} {left right : List Piece}
    (hword : Clean (plains word.toList)) (hl : Clean left) (hr : Clean right) :
    Clean (joined word left right) :=
  clean_insert hl (by decide) (clean_insert hword (by decide) hr)

theorem clean_symbol (op : BinaryOp) : Clean (plains op.symbol.toList) := by
  cases op <;> exact ⟨by simp [Unquoted, plains, BinaryOp.symbol, isQuote], by decide⟩

theorem clean_arrayPieces {items : List (List Piece)} (h : ∀ ps ∈ items, Clean ps) :
    Clean (arrayPieces items) :=
  clean_cons_inert (by decide) (clean_insert (clean_separated h) (by decide) clean_nil)

theorem clean_tuplePieces {items : List (List Piece)} (h : ∀ ps ∈ items, Clean ps) :
    Clean (tuplePieces items) := by
  have hbody := clean_enclosed (clean_separated h)
  unfold tuplePieces
  split
  · exact clean_insert (clean_of_inert (by decide)) (by decide)
      (clean_insert (clean_separated h) (by decide) clean_nil)
  · exact hbody

theorem clean_mapPieces {items : List (List Piece)} (h : ∀ ps ∈ items, Clean ps) :
    Clean (mapPieces items) :=
  clean_insert (clean_of_inert (by decide)) (by decide)
    (clean_insert (clean_separated h) (by decide) clean_nil)

/-- A minus sign opens no comment with what follows it. -/
theorem clean_unaryPieces (op : UnaryOp) {operand : List Piece} (h : Clean operand) :
    Clean (unaryPieces op operand) := by
  cases op with
  | not => exact clean_insert (clean_of_inert (by decide)) (by decide) h
  | neg =>
      refine clean_cons (by simp [isQuote]) (fun q hq => ?_) (clean_enclosedIf _ h)
      -- If a second sign followed, the text of the operand would start with it, and the
      -- operand would be in brackets.
      by_cases hminus : (textOf operand).head? = some '-'
      · rw [decide_eq_true hminus] at hq
        have hq : q = .plain '(' := (Option.some.inj hq).symm
        rw [hq]
        rfl
      · rw [decide_eq_false hminus] at hq
        change q ∈ operand.head? at hq
        rcases List.head?_eq_some_iff.1 hq with ⟨r, rfl⟩
        cases q with
        | plain c =>
            have hc : c ≠ '-' := by
              intro hc
              rw [hc] at hminus
              exact hminus rfl
            simp [opensComment, hc]
        | _ => rfl

end Lexical

theorem Value.clean_pieces (v : Value) : Clean v.pieces := by
  induction v using Value.mem_induction with
  | array items ih =>
      rw [pieces, listPieces_eq_map]
      exact clean_arrayPieces (List.forall_mem_map.2 ih)
  | tuple items ih =>
      rw [pieces, listPieces_eq_map]
      exact clean_tuplePieces (List.forall_mem_map.2 ih)
  | map entries ih =>
      rw [pieces, entriesPieces_eq_flatMap]
      refine clean_mapPieces fun ps hps => ?_
      rcases List.mem_flatMap.1 hps with ⟨e, he, hps⟩
      rcases List.mem_cons.1 hps with rfl | hps
      · exact (ih e he).1
      · rw [List.mem_singleton.1 hps]
        exact (ih e he).2
  | null => exact clean_of_inert (by decide)
  | bool b => cases b <;> exact clean_of_inert (by decide)
  | int n => exact clean_numeral (isNumeral_signed _)
  | uint n => exact clean_numeral ⟨_, (isFigures_digits _).isConstant, Or.inl rfl⟩
  | float x => exact clean_numeral (isNumeral_float x)
  | decimal d => exact clean_numeral (isNumeral_decimal d)
  | string s => exact clean_single rfl
  | date d => exact clean_single rfl
  | dateTime t => exact clean_single rfl
  | uuid u => exact clean_single rfl
  | ipv4 a => exact clean_single rfl
  | ipv6 a => exact clean_single rfl
  | enum name => exact clean_single rfl
  | json j => exact clean_single rfl

/-- The text of an expression, with the raw texts and the names of functions in it
    marked as such. -/
def Expr.symbols (e : Expr) : List Symbol :=
  e.pieces.flatMap Piece.symbols

/-- Without its marks it is the text. -/
theorem Expr.text_symbols (e : Expr) : e.symbols.flatMap Symbol.text = e.sql := by
  rw [symbols, Lexical.text_symbols]
  exact e.textOf_pieces

/-- The text of an expression opens no comment, and no quote stands outside of
    a quoted piece. -/
theorem Expr.clean_pieces (e : Expr) : Clean e.pieces := by
  induction e using Expr.mem_induction with
  | literal v => exact v.clean_pieces
  | field name => exact clean_single rfl
  | raw s => exact clean_single rfl
  | list items ih =>
      rw [pieces, listPieces_eq_map]
      exact clean_enclosed (clean_separated (List.forall_mem_map.2 ih))
  | call f arguments ih =>
      rw [pieces, listPieces_eq_map]
      exact clean_cons_inert rfl (clean_enclosed (clean_separated (List.forall_mem_map.2 ih)))
  | unary op e ih => exact clean_unaryPieces op (clean_enclosedIf _ ih)
  | range x lo hi hx hlo hhi =>
      exact clean_joined (clean_symbol _) (clean_enclosedIf _ hx)
        (clean_joined (clean_symbol _) (clean_enclosedIf _ hlo) (clean_enclosedIf _ hhi))
  | binary op l r h hl hr =>
      rw [pieces_binary h]
      exact clean_joined (clean_symbol op) (clean_enclosedIf _ hl) (clean_enclosedIf _ hr)

end ColumnStore
