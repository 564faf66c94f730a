import ColumnStore.Text.Escape
import Mathlib.Data.List.Chain

/-!
# Pieces of a Statement

The text of a statement cut into quoted strings, quoted names and single
characters, by the one rule that quoting has: what a quote opens ends at the
first quote of its kind that no backslash precedes.

A statement also holds texts that a caller gave and that are inserted as they
are: raw conditions and names of functions. Nothing is known about them, so a
text is looked at as a sequence of symbols, which are characters or such
insertions. The characters of the symbols, one after the other, are the text;
the scanner sees an insertion as one opaque symbol.

Two dashes, or a slash and a star, open a comment wherever they stand side by
side outside quotes. A text in which they do would be cut off by the server,
whatever the pieces after them are.

## Main definitions

* `Symbol`: A character of a text, or an insertion.
* `Piece`: A quoted string, a quoted name, another character, or an insertion.
* `scan`: The pieces of a text.
* `opensComment`: Whether two pieces side by side open a comment.
* `Clean`: No character outside quotes is a quote, and no comment is opened.

## Theorems

* `scan_symbols`: Scanning what pieces are written as gives the pieces.
* `text_symbols`: The characters of the symbols of pieces are their text.
* `clean_insert`: Clean pieces may be joined by a piece that starts nothing.
-/

namespace ColumnStore

namespace Lexical

/-- One place of a text. -/
inductive Symbol
  /-- A character. -/
  | char (c : Char)
  /-- A raw text that is inserted as it is. -/
  | verbatim (s : List Char)
  /-- The name of a function, which is inserted as it is. -/
  | function (f : List Char)

/-- The characters of a symbol. -/
def Symbol.text : Symbol → List Char
  | char c => [c]
  | verbatim s => s
  | function f => f

/-- What the quoting rule tells apart. -/
inductive Piece
  /-- A character outside quotes. -/
  | plain (c : Char)
  /-- A string between single quotes. -/
  | quoted (s : List Char)
  /-- A name between backticks. -/
  | named (s : List Char)
  /-- A raw text. -/
  | verbatim (s : List Char)
  /-- The name of a function. -/
  | function (f : List Char)
  deriving DecidableEq

namespace Piece

/-- The symbols as which a piece is written. -/
def symbols : Piece → List Symbol
  | plain c => [.char c]
  | quoted s => (Text.quote s).map .char
  | named s => (Text.quoteName s).map .char
  | verbatim s => [.verbatim s]
  | function f => [.function f]

/-- The characters as which a piece is written. -/
def text : Piece → List Char
  | plain c => [c]
  | quoted s => Text.quote s
  | named s => Text.quoteName s
  | verbatim s => s
  | function f => f

end Piece

/-- Characters outside quotes. -/
def plains (s : List Char) : List Piece :=
  s.map .plain

theorem plains_append (s t : List Char) : plains (s ++ t) = plains s ++ plains t :=
  List.map_append

/-- Where the scanner stands. -/
inductive Place
  /-- Outside quotes. -/
  | outside
  /-- Behind an opening quote and what was read since. -/
  | inside (mark : Char) (content : List Char)
  /-- The same, and a backslash. -/
  | escaped (mark : Char) (content : List Char)

/-- The quotes: of strings, and of names. -/
def isQuote (c : Char) : Bool :=
  c = '\x27' || c = '\x60'

/-- What stood between two quotes. -/
def closed (mark : Char) (content : List Char) : Piece :=
  if mark = '\x27' then .quoted content else .named content

/-- The pieces of a text from a place on. A quote that nothing closes has none. -/
def scanFrom : Place → List Symbol → Option (List Piece)
  | .outside, [] => some []
  | .inside _ _, [] => none
  | .escaped _ _, [] => none
  | .outside, .char c :: r =>
    if isQuote c then scanFrom (.inside c []) r else (scanFrom .outside r).map (.plain c :: ·)
  | .outside, .verbatim s :: r => (scanFrom .outside r).map (.verbatim s :: ·)
  | .outside, .function f :: r => (scanFrom .outside r).map (.function f :: ·)
  | .inside mark content, .char c :: r =>
    if c = '\\' then scanFrom (.escaped mark content) r
    else if c = mark then (scanFrom .outside r).map (closed mark content :: ·)
    else scanFrom (.inside mark (content ++ [c])) r
  | .escaped mark content, .char c :: r =>
    scanFrom (.inside mark (content ++ [Text.unescapeChar c])) r
  | .inside _ _, .verbatim _ :: _ => none
  | .inside _ _, .function _ :: _ => none
  | .escaped _ _, .verbatim _ :: _ => none
  | .escaped _ _, .function _ :: _ => none

/-- The pieces of a text. -/
def scan (symbols : List Symbol) : Option (List Piece) :=
  scanFrom .outside symbols

/-- Whether two pieces side by side open a comment. -/
def opensComment : Piece → Piece → Bool
  | .plain a, .plain b => (a = '-' && b = '-') || (a = '/' && b = '*')
  | _, _ => false

/-- No comment is opened. -/
abbrev CommentFree (ps : List Piece) : Prop :=
  ps.IsChain fun p q => opensComment p q = false

/-- No character outside quotes is a quote. -/
def Unquoted (ps : List Piece) : Prop :=
  ∀ c, .plain c ∈ ps → isQuote c = false

/-- No character outside quotes is a quote, and no comment is opened. -/
structure Clean (ps : List Piece) : Prop where
  /-- Quotes stand at the ends of quoted pieces only. -/
  unquoted : Unquoted ps
  /-- No comment is opened. -/
  commentFree : CommentFree ps

/-- The characters of the symbols of pieces are the text of the pieces. -/
theorem text_symbols (ps : List Piece) :
    (ps.flatMap Piece.symbols).flatMap Symbol.text = ps.flatMap Piece.text := by
  induction ps with
  | nil => rfl
  | cons p ps ih =>
      rw [List.flatMap_cons, List.flatMap_append, ih, List.flatMap_cons]
      cases p <;> simp [Piece.symbols, Piece.text, Symbol.text, List.flatMap_map]

/-! ## Scanning -/

/-- The escaped form of a character inside a string stands for the character. -/
theorem scanFrom_escapeChar (content : List Char) (c : Char) (r : List Symbol) :
    scanFrom (.inside '\x27' content) ((Text.escapeChar c).map .char ++ r)
      = scanFrom (.inside '\x27' (content ++ [c])) r := by
  unfold Text.escapeChar
  split
  -- Any other character stands for itself, as it is neither a backslash nor the quote.
  case h_9 hbackslash hquote _ _ _ _ _ _ =>
    show (if c = '\\' then scanFrom _ r else if c = '\x27' then _ else scanFrom _ r) = _
    rw [if_neg hbackslash, if_neg hquote]
  all_goals rfl

/-- The escaped form of a character inside a name stands for the character. -/
theorem scanFrom_escapeNameChar (content : List Char) (c : Char) (r : List Symbol) :
    scanFrom (.inside '\x60' content) ((Text.escapeNameChar c).map .char ++ r)
      = scanFrom (.inside '\x60' (content ++ [c])) r := by
  unfold Text.escapeNameChar
  split
  case h_3 hbacktick hbackslash =>
    show (if c = '\\' then scanFrom _ r else if c = '\x60' then _ else scanFrom _ r) = _
    rw [if_neg hbackslash, if_neg hbacktick]
  all_goals rfl

/-- The inside of a quoted text, escaped character by character, is read up to
    the closing quote, which no escaped form contains. -/
theorem scanFrom_body (mark : Char) (escapeChar : Char → List Char)
    (hmark : mark ≠ '\\')
    (hchar : ∀ content c r, scanFrom (.inside mark content) ((escapeChar c).map .char ++ r)
      = scanFrom (.inside mark (content ++ [c])) r)
    (s content : List Char) (r : List Symbol) :
    scanFrom (.inside mark content) ((s.flatMap escapeChar).map .char ++ .char mark :: r)
      = (scanFrom .outside r).map (closed mark (content ++ s) :: ·) := by
  -- Induction on what is left of the text, whatever was read of it before.
  induction s generalizing content with
  | nil =>
      show (if mark = '\\' then _ else if mark = mark then _ else scanFrom _ r) = _
      rw [if_neg hmark, if_pos rfl, List.append_nil]
  | cons c s ih =>
      rw [List.flatMap_cons, List.map_append, List.append_assoc, hchar, ih,
        List.append_assoc, List.singleton_append]

/-- One piece at the front of a text is scanned as itself. -/
theorem scan_append {p : Piece} (hp : ∀ c, p = .plain c → isQuote c = false) (r : List Symbol) :
    scan (p.symbols ++ r) = (scan r).map (p :: ·) := by
  cases p with
  | plain c =>
      simp only [Piece.symbols, List.singleton_append, scan, scanFrom]
      rw [if_neg (by simp [hp c rfl])]
  | quoted s =>
      have hbody := scanFrom_body '\x27' Text.escapeChar (by decide) scanFrom_escapeChar s [] r
      simpa [Piece.symbols, Text.quote, Text.escape, scan, scanFrom, isQuote, closed] using hbody
  | named s =>
      have hbody := scanFrom_body '\x60' Text.escapeNameChar (by decide) scanFrom_escapeNameChar s
        [] r
      simpa [Piece.symbols, Text.quoteName, scan, scanFrom, isQuote, closed] using hbody
  | verbatim s => rfl
  | function f => rfl

/-- Scanning what pieces are written as gives the pieces. -/
theorem scan_symbols {ps : List Piece} (h : Unquoted ps) :
    scan (ps.flatMap Piece.symbols) = some ps := by
  induction ps with
  | nil => rfl
  | cons p ps ih =>
      have hp : ∀ c, p = .plain c → isQuote c = false :=
        fun c hc => h c (by rw [hc]; exact List.mem_cons_self)
      have hps : Unquoted ps := fun c hc => h c (List.mem_cons_of_mem p hc)
      rw [List.flatMap_cons, scan_append hp, ih hps, Option.map_some]

/-! ## Clean pieces -/

/-- A piece that is no part of the opening of a comment. -/
def inert : Piece → Bool
  | .plain c => c ≠ '-' && c ≠ '/' && c ≠ '*' && !isQuote c
  | _ => true

theorem clean_nil : Clean [] :=
  ⟨fun _ h => absurd h List.not_mem_nil, .nil⟩

theorem opensComment_left {p : Piece} (h : inert p = true) (q : Piece) :
    opensComment p q = false := by
  cases p <;> cases q <;> simp_all [inert, opensComment]

theorem opensComment_right {q : Piece} (h : inert q = true) (p : Piece) :
    opensComment p q = false := by
  cases p <;> cases q <;> simp_all [inert, opensComment]

theorem unquoted_cons {p : Piece} {ps : List Piece} (hp : ∀ c, p = .plain c → isQuote c = false)
    (h : Unquoted ps) : Unquoted (p :: ps) := by
  intro c hc
  rcases List.mem_cons.1 hc with hc | hc
  · exact hp c hc.symm
  · exact h c hc

theorem unquoted_append {ps qs : List Piece} (hp : Unquoted ps) (hq : Unquoted qs) :
    Unquoted (ps ++ qs) := by
  intro c hc
  rcases List.mem_append.1 hc with hc | hc
  · exact hp c hc
  · exact hq c hc

theorem not_isQuote_of_inert {p : Piece} (h : inert p = true) (c : Char) (hc : p = .plain c) :
    isQuote c = false := by
  subst hc
  simp only [inert, Bool.and_eq_true, Bool.not_eq_true'] at h
  exact h.2

/-- A piece that opens no comment with the one after it may stand before clean
    pieces. -/
theorem clean_cons {p : Piece} {ps : List Piece} (hp : ∀ c, p = .plain c → isQuote c = false)
    (hhead : ∀ q ∈ ps.head?, opensComment p q = false) (h : Clean ps) : Clean (p :: ps) :=
  ⟨unquoted_cons hp h.unquoted, List.isChain_cons.2 ⟨hhead, h.commentFree⟩⟩

theorem clean_cons_inert {p : Piece} {ps : List Piece} (hp : inert p = true) (h : Clean ps) :
    Clean (p :: ps) :=
  clean_cons (not_isQuote_of_inert hp) (fun q _ => opensComment_left hp q) h

/-- Clean pieces may be joined by an inert piece. -/
theorem clean_insert {ps qs : List Piece} {p : Piece} (hps : Clean ps) (hp : inert p = true)
    (hqs : Clean qs) : Clean (ps ++ p :: qs) := by
  have hright := clean_cons_inert hp hqs
  refine ⟨unquoted_append hps.unquoted hright.unquoted, List.isChain_append.2
    ⟨hps.commentFree, hright.commentFree, fun x _ y hy => ?_⟩⟩
  rw [List.head?_cons, Option.mem_some] at hy
  rw [← hy]
  exact opensComment_right hp x

theorem clean_append_of_inert {ps qs : List Piece} (h : ps.all inert = true) (hqs : Clean qs) :
    Clean (ps ++ qs) := by
  induction ps with
  | nil => exact hqs
  | cons p ps ih =>
      rw [List.all_cons, Bool.and_eq_true] at h
      exact clean_cons_inert h.1 (ih h.2)

theorem clean_of_inert {ps : List Piece} (h : ps.all inert = true) : Clean ps := by
  have hclean := clean_append_of_inert h clean_nil
  rwa [List.append_nil] at hclean

end Lexical

end ColumnStore
