import Mathlib.Data.List.Forall2
import ColumnStore.Proofs.Lexical.Expression

/-!
# Layouts

The layout of a text is what is left of its pieces without the contents of
strings and names. Two texts have the same layout if they agree in everything
outside quotes, and in where strings and where names stand. A reader that goes
by the layout cannot tell them apart.

`split?` looks at a plain text, in which nothing is marked: the name of a
function is so many characters. So it is as good as its characters, and the
names that are looked at here are identifiers.

`Parallel` relates two texts with the same layout and says what their strings
and names are. It is made to be put together: a text that begins with a
character that is part of no comment may follow any other, and most parts of a
statement begin like that.

## Main definitions

* `Piece.kind`: A piece without what stands between its quotes.
* `contents`: The strings and names among pieces.
* `split?`: The pieces of a plain text.
* `SameLayout`: Two texts are split alike.
* `Parallel`, `ParallelClause`: Two texts have pieces of the same layout.

## Theorems

* `Parallel.sameLayout`: Such texts are split alike.
* `Parallel.append`, `Parallel.commaSeparated`: Such texts may be put together.
-/

namespace ColumnStore

namespace Lexical

namespace Piece

/-- A piece without what stands between its quotes. -/
def kind : Piece → Piece
  | quoted _ => quoted []
  | named _ => named []
  | p => p

/-- A string or a name. -/
def isClosed : Piece → Bool
  | quoted _ => true
  | named _ => true
  | _ => false

/-- A piece with the name of a function as so many characters. -/
def spread : Piece → List Piece
  | function f => plains f
  | p => [p]

/-- A piece of a plain text. -/
def isTextual : Piece → Bool
  | verbatim _ => false
  | function _ => false
  | _ => true

end Piece

/-- The layout of pieces. -/
def kinds (ps : List Piece) : List Piece :=
  ps.map Piece.kind

/-- The strings and names among pieces, in their order. -/
def contents (ps : List Piece) : List Piece :=
  ps.filter Piece.isClosed

/-- Pieces with the names of functions as so many characters. -/
def spread (ps : List Piece) : List Piece :=
  ps.flatMap Piece.spread

/-- The pieces of a plain text. -/
def split? (text : List Char) : Option (List Piece) :=
  scan (text.map .char)

/-- Two texts are split alike. Neither opens a comment, they have the same pieces but
    for what stands between quotes, and this is what is given. -/
def SameLayout (s t : List Char) (xs ys : List Piece) : Prop :=
  ∃ ps qs, split? s = some ps ∧ split? t = some qs ∧ CommentFree ps ∧ CommentFree qs ∧
    kinds ps = kinds qs ∧ contents ps = xs ∧ contents qs = ys

/-- A text has these pieces, with these strings and names among them. -/
structure Splits (s : List Char) (ps xs : List Piece) : Prop where
  /-- The pieces are the text. -/
  text : textOf ps = s
  /-- They open no comment, and no quote stands outside. -/
  clean : Clean ps
  /-- Nothing is inserted into the text. -/
  textual : ps.all Piece.isTextual = true
  /-- The strings and names are those given. -/
  contents : contents ps = xs

/-- Two texts have pieces of the same layout. -/
def Parallel (s t : List Char) (xs ys : List Piece) : Prop :=
  ∃ ps qs, Splits s ps xs ∧ Splits t qs ys ∧ kinds ps = kinds qs

/-- Pieces that may follow any others. -/
def Begins (ps : List Piece) : Prop :=
  ∀ p ∈ ps.head?, inert p = true

/-- Two texts have pieces of the same layout, which may follow any others. -/
def ParallelClause (s t : List Char) (xs ys : List Piece) : Prop :=
  ∃ ps qs, Splits s ps xs ∧ Splits t qs ys ∧ kinds ps = kinds qs ∧ Begins ps ∧ Begins qs

/-! ## Splitting -/

theorem symbols_of_isTextual {ps : List Piece} (h : ps.all Piece.isTextual = true) :
    ps.flatMap Piece.symbols = (textOf ps).map .char := by
  induction ps with
  | nil => rfl
  | cons p ps ih =>
      rw [List.all_cons, Bool.and_eq_true] at h
      rw [List.flatMap_cons, ih h.2, textOf_cons, List.map_append]
      cases p with
      | verbatim s => cases h.1
      | function f => cases h.1
      | _ => rfl

theorem Splits.split? {s : List Char} {ps xs : List Piece} (h : Splits s ps xs) :
    split? s = some ps := by
  have hscan := scan_symbols h.clean.unquoted
  rw [symbols_of_isTextual h.textual, h.text] at hscan
  exact hscan

/-- Texts with pieces of the same layout are split alike. -/
theorem Parallel.sameLayout {s t : List Char} {xs ys : List Piece} (h : Parallel s t xs ys) :
    SameLayout s t xs ys := by
  rcases h with ⟨ps, qs, hs, ht, hkinds⟩
  exact ⟨ps, qs, hs.split?, ht.split?, hs.clean.commentFree, ht.clean.commentFree, hkinds,
    hs.contents, ht.contents⟩

/-! ## Putting texts together -/

/-- Clean pieces may be followed by clean ones that may follow any others. -/
theorem clean_append {ps qs : List Piece} (hps : Clean ps) (hqs : Clean qs) (h : Begins qs) :
    Clean (ps ++ qs) :=
  ⟨unquoted_append hps.unquoted hqs.unquoted, List.isChain_append.2
    ⟨hps.commentFree, hqs.commentFree, fun p _ q hq => opensComment_right (h q hq) p⟩⟩

theorem contents_append (ps qs : List Piece) :
    contents (ps ++ qs) = contents ps ++ contents qs :=
  List.filter_append ps qs

theorem kinds_append (ps qs : List Piece) : kinds (ps ++ qs) = kinds ps ++ kinds qs :=
  List.map_append

theorem Splits.append {s t : List Char} {ps qs xs ys : List Piece} (hs : Splits s ps xs)
    (ht : Splits t qs ys) (h : Begins qs) : Splits (s ++ t) (ps ++ qs) (xs ++ ys) where
  text := by rw [textOf_append, hs.text, ht.text]
  clean := clean_append hs.clean ht.clean h
  textual := by rw [List.all_append, hs.textual, ht.textual]; rfl
  contents := by rw [contents_append, hs.contents, ht.contents]

theorem begins_append {ps qs : List Piece} (hp : Begins ps) (hq : Begins qs) :
    Begins (ps ++ qs) := by
  cases ps with
  | nil => exact hq
  | cons p ps => exact hp

variable {s t s' t' : List Char} {xs ys xs' ys' : List Piece}

theorem ParallelClause.parallel (h : ParallelClause s t xs ys) : Parallel s t xs ys := by
  rcases h with ⟨ps, qs, hs, ht, hkinds, -, -⟩
  exact ⟨ps, qs, hs, ht, hkinds⟩

/-- A clause may follow any text. -/
theorem Parallel.append (h : Parallel s t xs ys) (h' : ParallelClause s' t' xs' ys') :
    Parallel (s ++ s') (t ++ t') (xs ++ xs') (ys ++ ys') := by
  rcases h with ⟨ps, qs, hs, ht, hkinds⟩
  rcases h' with ⟨ps', qs', hs', ht', hkinds', hbegins, hbegins'⟩
  refine ⟨ps ++ ps', qs ++ qs', hs.append hs' hbegins, ht.append ht' hbegins', ?_⟩
  rw [kinds_append, kinds_append, hkinds, hkinds']

theorem ParallelClause.append (h : ParallelClause s t xs ys)
    (h' : ParallelClause s' t' xs' ys') :
    ParallelClause (s ++ s') (t ++ t') (xs ++ xs') (ys ++ ys') := by
  rcases h with ⟨ps, qs, hs, ht, hkinds, hp, hq⟩
  rcases h' with ⟨ps', qs', hs', ht', hkinds', hp', hq'⟩
  refine ⟨ps ++ ps', qs ++ qs', hs.append hs' hp', ht.append ht' hq', ?_, begins_append hp hp',
    begins_append hq hq'⟩
  rw [kinds_append, kinds_append, hkinds, hkinds']

/-- No text is a clause. -/
theorem ParallelClause.nil : ParallelClause [] [] [] [] :=
  ⟨[], [], ⟨rfl, clean_nil, rfl, rfl⟩, ⟨rfl, clean_nil, rfl, rfl⟩, rfl, nofun, nofun⟩

/-- A character that is part of no comment, before a text. -/
theorem Parallel.cons (h : Parallel s t xs ys) {c : Char} (hc : inert (.plain c) = true) :
    ParallelClause (c :: s) (c :: t) xs ys := by
  rcases h with ⟨ps, qs, hs, ht, hkinds⟩
  have hsplits : ∀ {s ps xs}, Splits s ps xs → Splits (c :: s) (.plain c :: ps) xs := by
    intro s ps xs hs
    exact ⟨by rw [textOf_cons, hs.text]; rfl, clean_cons_inert hc hs.clean, hs.textual,
      hs.contents⟩
  have hbegins : ∀ ps, Begins (.plain c :: ps) := by
    intro ps p hp
    rw [List.head?_cons, Option.mem_some] at hp
    rw [← hp]
    exact hc
  refine ⟨.plain c :: ps, .plain c :: qs, hsplits hs, hsplits ht, ?_, hbegins ps, hbegins qs⟩
  rw [kinds, kinds, List.map_cons, List.map_cons]
  exact congrArg _ hkinds

/-- Words before a text. -/
theorem Parallel.words {w : List Char} (hw : (plains w).all inert = true) (hne : w ≠ [])
    (h : Parallel s t xs ys) : ParallelClause (w ++ s) (w ++ t) xs ys := by
  induction w with
  | nil => exact absurd rfl hne
  | cons c w ih =>
      change (Piece.plain c :: plains w).all inert = true at hw
      rw [List.all_cons, Bool.and_eq_true] at hw
      cases w with
      | nil => exact h.cons hw.1
      | cons d w => exact (ih hw.2 (List.cons_ne_nil d w)).parallel.cons hw.1

/-- A clean text that is the same on both sides. -/
theorem parallelClause_plains {w : List Char} (hclean : Clean (plains w))
    (hbegins : Begins (plains w)) : ParallelClause w w [] [] := by
  have htextual : (plains w).all Piece.isTextual = true := by
    rw [plains, List.all_map]
    exact List.all_eq_true.2 fun _ _ => rfl
  have hnone : contents (plains w) = [] := by
    rw [contents, plains, List.filter_map]
    exact List.map_eq_nil_iff.2 (List.filter_eq_nil_iff.2 fun _ _ h => Bool.noConfusion h)
  have hsplits : Splits w (plains w) [] := ⟨textOf_plains w, hclean, htextual, hnone⟩
  exact ⟨plains w, plains w, hsplits, hsplits, rfl, hbegins, hbegins⟩

theorem parallelClause_words {w : List Char} (hw : (plains w).all inert = true) :
    ParallelClause w w [] [] :=
  parallelClause_plains (clean_of_inert hw) fun p hp =>
    List.all_eq_true.1 hw p (List.mem_of_mem_head? hp)

/-- Two names. -/
theorem parallelClause_name (m n : List Char) :
    ParallelClause (Text.quoteName m) (Text.quoteName n) [.named m] [.named n] := by
  have hsplits : ∀ n, Splits (Text.quoteName n) [.named n] [.named n] := by
    intro n
    exact ⟨by rw [textOf_cons, textOf_nil, List.append_nil]; rfl, clean_single rfl, rfl, rfl⟩
  have hbegins : ∀ n, Begins [.named n] := by
    intro n p hp
    rw [List.head?_cons, Option.mem_some] at hp
    rw [← hp]
    rfl
  exact ⟨[.named m], [.named n], hsplits m, hsplits n, rfl, hbegins m, hbegins n⟩

/-- A text in brackets may follow any text. -/
theorem Parallel.bracketed (h : Parallel s t xs ys) :
    ParallelClause (bracketed s) (bracketed t) xs ys := by
  have hclosing : ParallelClause [')'] [')'] [] [] := parallelClause_words (by decide)
  have happend := h.append hclosing
  rw [List.append_nil, List.append_nil] at happend
  exact happend.cons (by decide)

/-- Items with commas between them. -/
theorem Parallel.commaSeparated {α β : Type} {f : α → List Char} {g : β → List Char}
    {xs : α → List Piece} {ys : β → List Piece} {as : List α} {bs : List β}
    (h : List.Forall₂ (fun a b => Parallel (f a) (g b) (xs a) (ys b)) as bs) :
    Parallel (commaSeparated (as.map f)) (commaSeparated (bs.map g)) (as.flatMap xs)
      (bs.flatMap ys) := by
  induction h with
  | nil => exact ParallelClause.nil.parallel
  | @cons a b as bs hab hrest ih =>
      cases hrest with
      | nil =>
          have hone : ∀ s : List Char, ColumnStore.commaSeparated [s] = s := by
            intro s
            simp [ColumnStore.commaSeparated, List.intercalate]
          rw [List.map_cons, List.map_cons, List.map_nil, List.map_nil, hone, hone,
            List.flatMap_cons, List.flatMap_cons, List.flatMap_nil, List.flatMap_nil,
            List.append_nil, List.append_nil]
          exact hab
      | cons _ _ =>
          -- The comma and the blank are a clause before the other items.
          rw [List.map_cons, List.map_cons, List.map_cons, List.map_cons,
            commaSeparated_cons_cons, commaSeparated_cons_cons, List.flatMap_cons,
            List.flatMap_cons]
          exact hab.append ((ih.cons (by decide)).parallel.cons (by decide))

end Lexical

end ColumnStore
