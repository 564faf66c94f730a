import ColumnStore.Proofs.Lexical.Layout

/-!
# Expressions of One Shape

The shape of an expression is what is left of it without the contents of its
strings, of its JSON documents, and of the names of members of enumerations and
of fields. Expressions of one shape are written with the same layout, whatever
the contents are. In particular it does not depend on them whether a minus sign
is followed by a bracket, although this is decided by looking at the text of the
operand.

Nothing can be said of a raw text, and little of a function whose name is no
identifier. Expressions without these are called ordinary.

## Main definitions

* `Value.shape`, `Expr.shape`: A value and an expression without contents.
* `Value.strings`, `Expr.strings`: The contents, in the order of the text.
* `Expr.isOrdinary`: An expression of identifiers, without raw texts.

## Theorems

* `kinds_pieces_shape`: The shape determines the layout.
* `contents_pieces`: The contents are what stands between the quotes.
* `parallel_sql`: Expressions of one shape are written alike.
-/

namespace ColumnStore

open Lexical

namespace Value

mutual

/-- A value without its contents. -/
def shape : Value → Value
  | string _ => string ""
  | enum _ => enum ""
  | json _ => json .null
  | array items => array (listShape items)
  | tuple items => tuple (listShape items)
  | map entries => map (entriesShape entries)
  | v => v

/-- Some values without their contents. -/
def listShape : List Value → List Value
  | [] => []
  | v :: vs => shape v :: listShape vs

/-- Keys and values without their contents. -/
def entriesShape : List (Value × Value) → List (Value × Value)
  | [] => []
  | (k, v) :: es => (shape k, shape v) :: entriesShape es

end

mutual

/-- The texts that the literal of a value has between quotes. -/
def strings : Value → List Piece
  | string s => [.quoted s.toList]
  | enum name => [.quoted name.toList]
  | json j => [.quoted j.text]
  | date d => [.quoted d.text]
  | dateTime t => [.quoted t.text]
  | uuid u => [.quoted u.text]
  | ipv4 a => [.quoted a.text]
  | ipv6 a => [.quoted a.text]
  | array items => listStrings items
  | tuple items => listStrings items
  | map entries => entriesStrings entries
  | _ => []

/-- The texts between quotes of some literals. -/
def listStrings : List Value → List Piece
  | [] => []
  | v :: vs => strings v ++ listStrings vs

/-- The texts between quotes of the literals of keys and values in turn. -/
def entriesStrings : List (Value × Value) → List Piece
  | [] => []
  | (k, v) :: es => strings k ++ (strings v ++ entriesStrings es)

end

theorem listShape_eq_map (vs : List Value) : listShape vs = vs.map shape := by
  induction vs with
  | nil => rfl
  | cons v vs ih => rw [listShape, ih, List.map_cons]

theorem entriesShape_eq_map (entries : List (Value × Value)) :
    entriesShape entries = entries.map fun e => (shape e.1, shape e.2) := by
  induction entries with
  | nil => rfl
  | cons e es ih =>
      rcases e with ⟨k, v⟩
      rw [entriesShape, ih, List.map_cons]

theorem listStrings_eq_flatMap (vs : List Value) : listStrings vs = vs.flatMap strings := by
  induction vs with
  | nil => rfl
  | cons v vs ih => rw [listStrings, ih, List.flatMap_cons]

theorem entriesStrings_eq_flatMap (entries : List (Value × Value)) :
    entriesStrings entries = (entries.flatMap fun e => [e.1, e.2]).flatMap strings := by
  induction entries with
  | nil => rfl
  | cons e es ih =>
      rcases e with ⟨k, v⟩
      rw [entriesStrings, ih]
      rfl

end Value

/-- A name of letters, digits and underscores. -/
def isIdentifier (f : List Char) : Bool :=
  !f.isEmpty && f.all fun c => c.isAlphanum || c = '_'

/-- An insertion. -/
def Lexical.Piece.isInserted : Piece → Bool
  | .verbatim _ => true
  | .function _ => true
  | _ => false

/-- No raw text, and no function whose name is not an identifier. -/
def Lexical.Piece.isOrdinary : Piece → Bool
  | .verbatim _ => false
  | .function f => isIdentifier f
  | _ => true

namespace Expr

mutual

/-- An expression without the contents of its strings and names. -/
def shape : Expr → Expr
  | literal v => literal v.shape
  | field _ => field ""
  | raw s => raw s
  | list items => list (listShape items)
  | call f arguments => call f (listShape arguments)
  | unary op e => unary op (shape e)
  | binary op l r => binary op (shape l) (shape r)

/-- Some expressions without their contents. -/
def listShape : List Expr → List Expr
  | [] => []
  | e :: es => shape e :: listShape es

end

mutual

/-- The texts and names that an expression has between quotes. -/
def strings : Expr → List Piece
  | literal v => v.strings
  | field name => [.named name.toList]
  | raw _ => []
  | list items => listStrings items
  | call _ arguments => listStrings arguments
  | unary _ e => strings e
  | binary _ l r => strings l ++ strings r

/-- The texts and names between quotes of some expressions. -/
def listStrings : List Expr → List Piece
  | [] => []
  | e :: es => strings e ++ listStrings es

end

mutual

/-- Without raw texts, and with identifiers for the names of functions. -/
def isOrdinary : Expr → Bool
  | literal _ => true
  | field _ => true
  | raw _ => false
  | list items => listIsOrdinary items
  | call f arguments => isIdentifier f.toList && listIsOrdinary arguments
  | unary _ e => isOrdinary e
  | binary _ l r => isOrdinary l && isOrdinary r

/-- Some expressions are ordinary. -/
def listIsOrdinary : List Expr → Bool
  | [] => true
  | e :: es => isOrdinary e && listIsOrdinary es

end

theorem listShape_eq_map (es : List Expr) : listShape es = es.map shape := by
  induction es with
  | nil => rfl
  | cons e es ih => rw [listShape, ih, List.map_cons]

theorem listStrings_eq_flatMap (es : List Expr) : listStrings es = es.flatMap strings := by
  induction es with
  | nil => rfl
  | cons e es ih => rw [listStrings, ih, List.flatMap_cons]

theorem listIsOrdinary_eq_all (es : List Expr) : listIsOrdinary es = es.all isOrdinary := by
  induction es with
  | nil => rfl
  | cons e es ih => rw [listIsOrdinary, ih, List.all_cons]

theorem precedence?_shape (e : Expr) : e.shape.precedence? = e.precedence? := by
  cases e <;> rfl

theorem needsBrackets_shape (strength : Nat) (e : Expr) :
    e.shape.needsBrackets strength = e.needsBrackets strength := by
  unfold needsBrackets
  rw [precedence?_shape]

theorem needsBracketsRight_shape (op : BinaryOp) (e : Expr) :
    e.shape.needsBracketsRight op = e.needsBracketsRight op := by
  have hchain : e.shape.continuesChain op = e.continuesChain op := by
    cases e <;> rfl
  unfold needsBracketsRight
  rw [precedence?_shape, hchain]

theorem not_ranged_shape {op : BinaryOp} {r : Expr} (h : ¬ Ranged op r) : ¬ Ranged op r.shape := by
  rintro ⟨hop, lo, hi, hr⟩
  cases r with
  | list items =>
      rw [shape, listShape_eq_map, list.injEq] at hr
      match items, hr with
      | [x, y], _ => exact h ⟨hop, x, y, rfl⟩
  | _ => cases hr

end Expr

namespace Lexical

/-! ## The layout of the parts of a text -/

theorem kinds_plains (w : List Char) : kinds (plains w) = plains w := by
  rw [kinds, plains, List.map_map]
  rfl

theorem kinds_enclosed (ps : List Piece) : kinds (enclosed ps) = enclosed (kinds ps) := by
  rw [enclosed, enclosed, kinds, List.map_cons, List.map_append]
  rfl

theorem kinds_enclosedIf (wanted : Bool) (ps : List Piece) :
    kinds (enclosedIf wanted ps) = enclosedIf wanted (kinds ps) := by
  cases wanted
  · rfl
  · exact kinds_enclosed ps

theorem kinds_separated (items : List (List Piece)) :
    kinds (separated items) = separated (items.map kinds) := by
  match items with
  | [] => rfl
  | [x] => simp [separated, List.intercalate]
  | x :: y :: r =>
      rw [separated_cons_cons, kinds_append, List.map_cons, List.map_cons, separated_cons_cons,
        ← List.map_cons, ← kinds_separated (y :: r)]
      rfl

theorem kinds_joined (word : String) (l r : List Piece) :
    kinds (joined word l r) = joined word (kinds l) (kinds r) := by
  rw [joined, joined, kinds_append]
  change kinds l ++ .plain ' ' :: kinds (plains word.toList ++ .plain ' ' :: r) = _
  rw [kinds_append, kinds_plains]
  rfl

theorem kinds_arrayPieces (items : List (List Piece)) :
    kinds (arrayPieces items) = arrayPieces (items.map kinds) := by
  rw [arrayPieces, arrayPieces, ← kinds_separated, kinds, List.map_cons, List.map_append]
  rfl

theorem kinds_tuplePieces (items : List (List Piece)) :
    kinds (tuplePieces items) = tuplePieces (items.map kinds) := by
  unfold tuplePieces
  rw [List.length_map, ← kinds_separated]
  split
  · rw [kinds_append, kinds_plains, kinds_enclosed]
  · rw [kinds_enclosed]

theorem kinds_mapPieces (items : List (List Piece)) :
    kinds (mapPieces items) = mapPieces (items.map kinds) := by
  rw [mapPieces, mapPieces, kinds_append, kinds_plains, kinds_enclosed, kinds_separated]

/-- The layout tells the first character of the text. -/
theorem head?_textOf_congr {ps qs : List Piece} (h : kinds ps = kinds qs) :
    (textOf ps).head? = (textOf qs).head? := by
  induction ps generalizing qs with
  | nil =>
      rw [List.map_eq_nil_iff.1 h.symm]
  | cons p ps ih =>
      cases qs with
      | nil => cases h
      | cons q qs =>
          rw [kinds, kinds, List.map_cons, List.map_cons, List.cons.injEq] at h
          rcases h with ⟨hkind, hrest⟩
          rw [textOf_cons, textOf_cons]
          -- An inserted text may be empty, and then the next piece comes first.
          have hinserted : ∀ s : List Char,
              (s ++ textOf ps).head? = (s ++ textOf qs).head? := by
            intro s
            rw [List.head?_append, List.head?_append, ih hrest]
          cases p with
          | plain c => cases q <;> cases hkind; rfl
          | quoted s => cases q <;> cases hkind; rfl
          | named s => cases q <;> cases hkind; rfl
          | verbatim s => cases q <;> cases hkind; exact hinserted s
          | function f => cases q <;> cases hkind; exact hinserted f

theorem kinds_unaryPieces (op : UnaryOp) {ps qs : List Piece} (h : kinds ps = kinds qs) :
    kinds (unaryPieces op ps) = kinds (unaryPieces op qs) := by
  cases op with
  | not =>
      change kinds (plains "NOT".toList ++ .plain ' ' :: ps)
        = kinds (plains "NOT".toList ++ .plain ' ' :: qs)
      rw [kinds_append, kinds_append]
      exact congrArg (fun ks => kinds (plains "NOT".toList) ++ .plain ' ' :: ks) h
  | neg =>
      change .plain '-' :: kinds (enclosedIf ((textOf ps).head? = some '-') ps)
        = .plain '-' :: kinds (enclosedIf ((textOf qs).head? = some '-') qs)
      rw [kinds_enclosedIf, kinds_enclosedIf, h, head?_textOf_congr h]

/-! ## What is picked from the parts of a text -/

section

variable {k : Piece → Bool} (hk : ∀ c, k (.plain c) = false)

include hk

theorem filter_cons_plain (c : Char) (ps : List Piece) :
    (Piece.plain c :: ps).filter k = ps.filter k :=
  List.filter_cons_of_neg (by rw [hk]; decide)

theorem filter_plains (w : List Char) : (plains w).filter k = [] := by
  induction w with
  | nil => rfl
  | cons c w ih => exact (filter_cons_plain hk c (plains w)).trans ih

theorem filter_enclosed (ps : List Piece) : (enclosed ps).filter k = ps.filter k := by
  rw [enclosed, filter_cons_plain hk, List.filter_append, filter_cons_plain hk, List.filter_nil,
    List.append_nil]

theorem filter_enclosedIf (wanted : Bool) (ps : List Piece) :
    (enclosedIf wanted ps).filter k = ps.filter k := by
  cases wanted
  · rfl
  · exact filter_enclosed hk ps

theorem filter_separated (items : List (List Piece)) :
    (separated items).filter k = items.flatMap (List.filter k) := by
  match items with
  | [] => rfl
  | [x] => simp [separated, List.intercalate]
  | x :: y :: r =>
      rw [separated_cons_cons, List.filter_append, filter_cons_plain hk, filter_cons_plain hk,
        filter_separated (y :: r)]
      rfl

theorem filter_joined (word : String) (l r : List Piece) :
    (joined word l r).filter k = l.filter k ++ r.filter k := by
  rw [joined, List.filter_append, filter_cons_plain hk, List.filter_append, filter_plains hk,
    List.nil_append, filter_cons_plain hk]

theorem filter_arrayPieces (items : List (List Piece)) :
    (arrayPieces items).filter k = items.flatMap (List.filter k) := by
  rw [arrayPieces, filter_cons_plain hk, List.filter_append, filter_separated hk,
    filter_cons_plain hk, List.filter_nil, List.append_nil]

theorem filter_tuplePieces (items : List (List Piece)) :
    (tuplePieces items).filter k = items.flatMap (List.filter k) := by
  unfold tuplePieces
  split
  · rw [List.filter_append, filter_plains hk, filter_enclosed hk, filter_separated hk,
      List.nil_append]
  · rw [filter_enclosed hk, filter_separated hk]

theorem filter_mapPieces (items : List (List Piece)) :
    (mapPieces items).filter k = items.flatMap (List.filter k) := by
  rw [mapPieces, List.filter_append, filter_plains hk, filter_enclosed hk, filter_separated hk,
    List.nil_append]

theorem filter_unaryPieces (op : UnaryOp) (ps : List Piece) :
    (unaryPieces op ps).filter k = ps.filter k := by
  cases op with
  | not =>
      change (plains "NOT".toList ++ .plain ' ' :: ps).filter k = ps.filter k
      rw [List.filter_append, filter_plains hk, List.nil_append, filter_cons_plain hk]
  | neg =>
      change (Piece.plain '-' :: enclosedIf _ ps).filter k = ps.filter k
      rw [filter_cons_plain hk, filter_enclosedIf hk]

end

end Lexical

/-! ## Shapes and layouts -/

namespace Value

/-- The shape of a value determines the layout of its literal. -/
theorem kinds_pieces_shape (v : Value) : kinds v.shape.pieces = kinds v.pieces := by
  induction v using Value.mem_induction with
  | array items ih =>
      rw [shape, pieces, pieces, kinds_arrayPieces, kinds_arrayPieces, listPieces_eq_map,
        listPieces_eq_map, listShape_eq_map, List.map_map, List.map_map, List.map_map]
      exact congrArg arrayPieces (List.map_congr_left ih)
  | tuple items ih =>
      rw [shape, pieces, pieces, kinds_tuplePieces, kinds_tuplePieces, listPieces_eq_map,
        listPieces_eq_map, listShape_eq_map, List.map_map, List.map_map, List.map_map]
      exact congrArg tuplePieces (List.map_congr_left ih)
  | map entries ih =>
      rw [shape, pieces, pieces, kinds_mapPieces, kinds_mapPieces, entriesPieces_eq_flatMap,
        entriesPieces_eq_flatMap, entriesShape_eq_map, List.flatMap_map, List.map_flatMap,
        List.map_flatMap]
      refine congrArg mapPieces (List.flatMap_congr fun e he => ?_)
      rw [List.map_cons, List.map_cons, List.map_nil, List.map_cons, List.map_cons, List.map_nil,
        (ih e he).1, (ih e he).2]
  | _ => rfl

/-- The contents of a value are what its literal has between quotes. -/
theorem contents_pieces (v : Value) : contents v.pieces = v.strings := by
  have hplain : ∀ c, Piece.isClosed (.plain c) = false := fun _ => rfl
  unfold contents
  induction v using Value.mem_induction with
  | array items ih =>
      rw [pieces, strings, filter_arrayPieces hplain, listPieces_eq_map, listStrings_eq_flatMap,
        List.flatMap_map]
      exact List.flatMap_congr ih
  | tuple items ih =>
      rw [pieces, strings, filter_tuplePieces hplain, listPieces_eq_map, listStrings_eq_flatMap,
        List.flatMap_map]
      exact List.flatMap_congr ih
  | map entries ih =>
      rw [pieces, strings, filter_mapPieces hplain, entriesPieces_eq_flatMap,
        entriesStrings_eq_flatMap, List.flatMap_assoc, List.flatMap_assoc]
      refine List.flatMap_congr fun e he => ?_
      rw [List.flatMap_cons, List.flatMap_cons, List.flatMap_nil, List.flatMap_cons,
        List.flatMap_cons, List.flatMap_nil, (ih e he).1, (ih e he).2]
  | null => exact filter_plains hplain _
  | bool b => exact filter_plains hplain _
  | int n => exact filter_plains hplain _
  | uint n => exact filter_plains hplain _
  | float x => exact filter_plains hplain _
  | decimal d => exact filter_plains hplain _
  | _ => rfl

theorem filter_isInserted_pieces (v : Value) : v.pieces.filter Piece.isInserted = [] := by
  have hplain : ∀ c, Piece.isInserted (.plain c) = false := fun _ => rfl
  induction v using Value.mem_induction with
  | array items ih =>
      rw [pieces, filter_arrayPieces hplain, listPieces_eq_map, List.flatMap_map]
      exact List.flatMap_eq_nil_iff.2 ih
  | tuple items ih =>
      rw [pieces, filter_tuplePieces hplain, listPieces_eq_map, List.flatMap_map]
      exact List.flatMap_eq_nil_iff.2 ih
  | map entries ih =>
      rw [pieces, filter_mapPieces hplain, entriesPieces_eq_flatMap, List.flatMap_assoc]
      refine List.flatMap_eq_nil_iff.2 fun e he => ?_
      rw [List.flatMap_cons, List.flatMap_cons, List.flatMap_nil, (ih e he).1, (ih e he).2]
      rfl
  | null => exact filter_plains hplain _
  | bool b => exact filter_plains hplain _
  | int n => exact filter_plains hplain _
  | uint n => exact filter_plains hplain _
  | float x => exact filter_plains hplain _
  | decimal d => exact filter_plains hplain _
  | _ => rfl

end Value

namespace Expr

/-- The shape of an expression determines the layout of its text. -/
theorem kinds_pieces_shape (e : Expr) : kinds e.shape.pieces = kinds e.pieces := by
  induction e using Expr.mem_induction with
  | literal v => exact v.kinds_pieces_shape
  | field name => rfl
  | raw s => rfl
  | list items ih =>
      rw [shape, pieces, pieces, kinds_enclosed, kinds_enclosed, kinds_separated, kinds_separated,
        listPieces_eq_map, listPieces_eq_map, listShape_eq_map, List.map_map, List.map_map,
        List.map_map]
      exact congrArg (enclosed ∘ separated) (List.map_congr_left ih)
  | call f arguments ih =>
      rw [shape, pieces, pieces]
      change .function f.toList :: kinds (enclosed _) = .function f.toList :: kinds (enclosed _)
      rw [kinds_enclosed, kinds_enclosed, kinds_separated, kinds_separated,
        listPieces_eq_map, listPieces_eq_map, listShape_eq_map, List.map_map, List.map_map,
        List.map_map]
      exact congrArg (fun ks => .function f.toList :: enclosed (separated ks))
        (List.map_congr_left ih)
  | unary op e ih =>
      rw [shape, pieces, pieces, needsBrackets_shape]
      exact kinds_unaryPieces op (by rw [kinds_enclosedIf, kinds_enclosedIf, ih])
  | range x lo hi hx hlo hhi =>
      rw [shape, shape, listShape, listShape, listShape, pieces, pieces, kinds_joined, kinds_joined,
        kinds_joined, kinds_joined, kinds_enclosedIf, kinds_enclosedIf, kinds_enclosedIf,
        kinds_enclosedIf, kinds_enclosedIf, kinds_enclosedIf, needsBrackets_shape,
        needsBracketsRight_shape, needsBracketsRight_shape, hx, hlo, hhi]
  | binary op l r h hl hr =>
      rw [shape, pieces_binary h, pieces_binary (not_ranged_shape h), kinds_joined, kinds_joined,
        kinds_enclosedIf, kinds_enclosedIf, kinds_enclosedIf, kinds_enclosedIf,
        needsBrackets_shape, needsBracketsRight_shape, hl, hr]

/-- The contents of an expression are what its text has between quotes. -/
theorem contents_pieces (e : Expr) : contents e.pieces = e.strings := by
  have hplain : ∀ c, Piece.isClosed (.plain c) = false := fun _ => rfl
  induction e using Expr.mem_induction with
  | literal v => exact v.contents_pieces
  | field name => rfl
  | raw s => rfl
  | list items ih =>
      rw [pieces, strings, contents, filter_enclosed hplain, filter_separated hplain,
        listPieces_eq_map, listStrings_eq_flatMap, List.flatMap_map]
      exact List.flatMap_congr ih
  | call f arguments ih =>
      rw [pieces, strings]
      change (enclosed _).filter Piece.isClosed = _
      rw [filter_enclosed hplain, filter_separated hplain, listPieces_eq_map,
        listStrings_eq_flatMap, List.flatMap_map]
      exact List.flatMap_congr ih
  | unary op e ih =>
      rw [pieces, strings, contents, filter_unaryPieces hplain, filter_enclosedIf hplain]
      exact ih
  | range x lo hi hx hlo hhi =>
      rw [pieces, strings, strings, listStrings, listStrings, listStrings, contents,
        filter_joined hplain, filter_joined hplain, filter_enclosedIf hplain,
        filter_enclosedIf hplain, filter_enclosedIf hplain, List.append_nil, ← hx, ← hlo, ← hhi]
      rfl
  | binary op l r h hl hr =>
      rw [pieces_binary h, strings, contents, filter_joined hplain, filter_enclosedIf hplain,
        filter_enclosedIf hplain, ← hl, ← hr]
      rfl

/-- What is inserted into an ordinary expression are identifiers. -/
theorem all_isOrdinary_pieces {e : Expr} (h : e.isOrdinary = true) :
    (e.pieces.filter Piece.isInserted).all Piece.isOrdinary = true := by
  have hplain : ∀ c, Piece.isInserted (.plain c) = false := fun _ => rfl
  -- The induction gives this for each item of a list.
  have hitems : ∀ {es : List Expr},
      (∀ e ∈ es, e.isOrdinary = true →
        (e.pieces.filter Piece.isInserted).all Piece.isOrdinary = true) →
      listIsOrdinary es = true →
      ((separated (listPieces es)).filter Piece.isInserted).all Piece.isOrdinary = true := by
    intro es ih hes
    rw [listIsOrdinary_eq_all, List.all_eq_true] at hes
    rw [filter_separated hplain, listPieces_eq_map, List.flatMap_map, List.all_flatMap,
      List.all_eq_true]
    exact fun e he => ih e he (hes e he)
  induction e using Expr.mem_induction with
  | literal v => rw [pieces, v.filter_isInserted_pieces, List.all_nil]
  | field name => rfl
  | raw s => cases h
  | list items ih =>
      rw [pieces, filter_enclosed hplain]
      exact hitems ih h
  | call f arguments ih =>
      rw [isOrdinary, Bool.and_eq_true] at h
      rw [pieces]
      change (Piece.function f.toList :: (enclosed _).filter Piece.isInserted).all _ = true
      rw [List.all_cons, filter_enclosed hplain, hitems ih h.2, Bool.and_true]
      exact h.1
  | unary op e ih =>
      rw [pieces, filter_unaryPieces hplain, filter_enclosedIf hplain]
      exact ih h
  | range x lo hi hx hlo hhi =>
      rw [isOrdinary, isOrdinary, listIsOrdinary, listIsOrdinary, listIsOrdinary] at h
      simp only [Bool.and_eq_true, Bool.and_true] at h
      rw [pieces, filter_joined hplain, filter_joined hplain, filter_enclosedIf hplain,
        filter_enclosedIf hplain, filter_enclosedIf hplain, List.all_append, List.all_append,
        hx h.1, hlo h.2.1, hhi h.2.2]
      rfl
  | binary op l r hranged hl hr =>
      rw [isOrdinary, Bool.and_eq_true] at h
      rw [pieces_binary hranged, filter_joined hplain, filter_enclosedIf hplain,
        filter_enclosedIf hplain, List.all_append, hl h.1, hr h.2]
      rfl

end Expr

namespace Lexical

/-! ## Function names as characters -/

theorem textOf_spread (ps : List Piece) : textOf (spread ps) = textOf ps := by
  induction ps with
  | nil => rfl
  | cons p ps ih =>
      rw [spread, List.flatMap_cons, textOf_append, textOf_cons]
      refine congrArg₂ _ ?_ ih
      cases p with
      | function f => exact textOf_plains f
      | _ => exact List.append_nil _

theorem contents_spread (ps : List Piece) : contents (spread ps) = contents ps := by
  induction ps with
  | nil => rfl
  | cons p ps ih =>
      rw [spread, List.flatMap_cons, contents_append]
      change contents p.spread ++ contents (spread ps) = contents ([p] ++ ps)
      rw [ih, contents_append]
      cases p with
      | function f => rw [Piece.spread, contents, filter_plains fun _ => rfl]; rfl
      | _ => rfl

/-- The layout determines the one with function names as characters. -/
theorem kinds_spread (ps : List Piece) : kinds (spread ps) = spread (kinds ps) := by
  rw [kinds, spread, List.map_flatMap, spread, kinds, List.flatMap_map]
  refine List.flatMap_congr fun p _ => ?_
  cases p with
  | function f => exact kinds_plains f
  | _ => rfl

theorem textual_spread {ps : List Piece}
    (h : (ps.filter Piece.isInserted).all Piece.isOrdinary = true) :
    (spread ps).all Piece.isTextual = true := by
  rw [spread, List.all_flatMap, List.all_eq_true]
  intro p hp
  cases p with
  | verbatim s =>
      have hmem := List.all_eq_true.1 h _ (List.mem_filter.2 ⟨hp, rfl⟩)
      cases hmem
  | function f =>
      rw [Piece.spread, plains, List.all_map]
      exact List.all_eq_true.2 fun _ _ => rfl
  | _ => rfl

theorem all_inert_of_isIdentifier {f : List Char} (h : isIdentifier f = true) :
    (plains f).all inert = true := by
  rw [isIdentifier, Bool.and_eq_true, List.all_eq_true] at h
  refine all_inert_plains fun c hc => ?_
  rw [isWordChar, Bool.or_eq_true]
  exact Or.inl (h.2 c hc)

/-- The piece at the front stays there, unless it is a name, which is inert. -/
theorem head?_spread {ps : List Piece} {q : Piece}
    (h : (ps.filter Piece.isInserted).all Piece.isOrdinary = true)
    (hq : q ∈ (spread ps).head?) : q ∈ ps.head? ∨ inert q = true := by
  cases ps with
  | nil => exact Or.inl hq
  | cons p ps =>
      cases p with
      | function f =>
          have hf := List.all_eq_true.1 h _ (List.mem_filter.2 ⟨List.mem_cons_self, rfl⟩)
          cases f with
          | nil => cases hf
          | cons c f =>
              have hq : q = .plain c := (Option.some.inj hq).symm
              rw [hq]
              exact Or.inr (List.all_eq_true.1 (all_inert_of_isIdentifier hf) _ List.mem_cons_self)
      | _ => exact Or.inl hq

theorem clean_spread {ps : List Piece} (hclean : Clean ps)
    (h : (ps.filter Piece.isInserted).all Piece.isOrdinary = true) : Clean (spread ps) := by
  induction ps with
  | nil => exact clean_nil
  | cons p ps ih =>
      rcases List.isChain_cons.1 hclean.commentFree with ⟨hhead, htail⟩
      have hclean' : Clean ps :=
        ⟨fun c hc => hclean.unquoted c (List.mem_cons_of_mem p hc), htail⟩
      have hrest : (ps.filter Piece.isInserted).all Piece.isOrdinary = true := by
        rw [List.all_eq_true] at h ⊢
        intro q hq
        rcases List.mem_filter.1 hq with ⟨hmem, hinserted⟩
        exact h q (List.mem_filter.2 ⟨List.mem_cons_of_mem p hmem, hinserted⟩)
      have hspread := ih hclean' hrest
      rw [spread, List.flatMap_cons]
      cases p with
      | verbatim s =>
          have hs := List.all_eq_true.1 h _ (List.mem_filter.2 ⟨List.mem_cons_self, rfl⟩)
          cases hs
      | function f =>
          have hf := List.all_eq_true.1 h _ (List.mem_filter.2 ⟨List.mem_cons_self, rfl⟩)
          exact clean_append_of_inert (all_inert_of_isIdentifier hf) hspread
      | _ =>
          -- A piece that stays opens no comment with the one after it, nor with the name
          -- of a function in its place.
          refine clean_cons (fun c hc => hclean.unquoted c (hc ▸ List.mem_cons_self))
            (fun q hq => ?_) hspread
          rcases head?_spread hrest hq with hq | hq
          · exact hhead q hq
          · exact opensComment_right hq _

/-- Ordinary expressions of one shape are written alike, with the contents that they
    have. -/
theorem parallel_sql {e f : Expr} (hshape : e.shape = f.shape) (he : e.isOrdinary = true)
    (hf : f.isOrdinary = true) : Parallel e.sql f.sql e.strings f.strings := by
  -- Each of the two has its own pieces, which only their layouts compare.
  have hsplits : ∀ {e : Expr}, e.isOrdinary = true → Splits e.sql (spread e.pieces) e.strings := by
    intro e he
    have hinserted := Expr.all_isOrdinary_pieces he
    exact ⟨by rw [textOf_spread, e.textOf_pieces], clean_spread e.clean_pieces hinserted,
      textual_spread hinserted, by rw [contents_spread, e.contents_pieces]⟩
  refine ⟨spread e.pieces, spread f.pieces, hsplits he, hsplits hf, ?_⟩
  rw [kinds_spread, kinds_spread, ← e.kinds_pieces_shape, ← f.kinds_pieces_shape, hshape]

end Lexical

end ColumnStore
