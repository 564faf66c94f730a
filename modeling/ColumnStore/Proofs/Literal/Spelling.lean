import ColumnStore.ColumnType.Decode
import ColumnStore.Proofs.ColumnType.Shape
import ColumnStore.Proofs.Literal.Notation

/-!
# Spellings of Literals

One literal is spelled in many ways. Lists have three kinds of brackets and maps two, the names
of calls are written in any case, absence is a word or a mark, a text is quoted with one escape
or another or stands as a bare word, and blanks are wherever there is a gap. All of this may
differ from one item to the next, at every depth.

Whatever the spelling, the literal is what is read. The choice among the notations is ordered,
and what follows may decide it: `map` before a round bracket is a call, and `NULL` before more
characters of a word is a word. So nothing can be said of a spelling by itself. In a longer
spelling, though, a literal is always followed by a comma, a colon or a closing bracket, with
blanks in front or without, and by nothing at the very end. Where that is so, every reader that
is tried before the right one refuses.

## Main definitions

* `Text.SpellsText`: How a text may be written in quotes.
* `Literal.Item`: A literal with the text it is written as, and the blanks around that.
* `Literal.Spells`: How a literal may be written.
* `Literal.Ends`: What stands after a literal in every spelling.

## Theorems

* `Text.readQuotedBody_of_spells`: A quoted text is read, however it is escaped.
* `Literal.readerTo_word`: A bare word is read as a scalar where it ends.
* `Literal.Spells.reads`: A spelling is read up to its end.
* `Literal.exists_spells`: Every literal has a spelling.
* `Literal.read_of_spells`: A spelling is read as its literal, as what a client writes is.
-/

namespace ColumnStore

namespace Text

/-- How a character may be written in quotes. -/
inductive SpellsChar (c : Char) : List Char → Prop
  /-- As it is. -/
  | plain (hquote : c ≠ '\x27') (hbackslash : c ≠ '\\') : SpellsChar c [c]
  /-- A quote as two of them. -/
  | doubled (h : c = '\x27') : SpellsChar c ['\x27', '\x27']
  /-- After a backslash, as what stands for it there. -/
  | escaped (e : Char) (h : unescapeChar e = c) : SpellsChar c ['\\', e]

/-- How a text may be written in quotes. -/
inductive SpellsText : List Char → List Char → Prop
  /-- The empty text. -/
  | nil : SpellsText [] []
  /-- One character after the other. -/
  | cons {c : Char} {s t u : List Char} (hc : SpellsChar c t) (hs : SpellsText s u) :
      SpellsText (c :: s) (t ++ u)

/-- What is written in quotes is read up to the closing one. -/
theorem readQuotedBody_of_spells {s t : List Char} (h : SpellsText s t) {r : List Char}
    (hr : ∀ c ∈ r.head?, c ≠ '\x27') : readQuotedBody (t ++ '\x27' :: r) = some (s, r) := by
  induction h with
  | nil =>
    cases r with
    | nil => rfl
    | cons c r => simp [readQuotedBody, hr c rfl]
  | cons hc _ ih =>
    rw [List.append_assoc]
    cases hc with
    | plain hquote hbackslash =>
      rw [List.singleton_append, readQuotedBody_cons hbackslash hquote, ih]
      rfl
    | doubled h =>
      subst h
      rw [List.cons_append, List.singleton_append, readQuotedBody, ih]
      rfl
    | escaped e h =>
      subst h
      rw [List.cons_append, List.singleton_append, readQuotedBody, ih]
      rfl

/-- Every text can be written in quotes. -/
theorem exists_spellsText (s : List Char) : ∃ t, SpellsText s t := by
  induction s with
  | nil => exact ⟨[], .nil⟩
  | cons c s ih =>
    rcases ih with ⟨t, ht⟩
    by_cases hquote : c = '\x27'
    · exact ⟨_, .cons (.doubled hquote) ht⟩
    by_cases hbackslash : c = '\\'
    · exact ⟨_, .cons (.escaped '\\' hbackslash.symm) ht⟩
    · exact ⟨_, .cons (.plain hquote hbackslash) ht⟩

end Text

namespace Literal

open Text (Reader IsBlanks SpellsText)

/-- A literal with the text it is written as, and the blanks around that. -/
structure Item where
  /-- The literal. -/
  literal : Literal
  /-- The blanks before it. -/
  before : List Char
  /-- What it is written as. -/
  text : List Char
  /-- The blanks after it. -/
  after : List Char
  isBlanks_before : IsBlanks before
  isBlanks_after : IsBlanks after

/-- An item as it is written. -/
def Item.written (i : Item) : List Char :=
  i.before ++ (i.text ++ i.after)

/-- An item without blanks. -/
def Item.plain (l : Literal) (s : List Char) : Item :=
  ⟨l, [], s, [], Text.isBlanks_nil, Text.isBlanks_nil⟩

/-- Items with commas between them. -/
def itemsText (items : List Item) : List Char :=
  [','].intercalate (items.map Item.written)

/-- Keys and values with colons between them, and commas between these pairs. -/
def entriesText (entries : List (Item × Item)) : List Char :=
  [','].intercalate (entries.map fun e => e.1.written ++ ':' :: e.2.written)

/-- How a literal may be written. -/
inductive Spells : Literal → List Char → Prop
  /-- Absence as a word. -/
  | null : Spells null "NULL".toList
  /-- Absence as a mark. -/
  | mark : Spells null ['\\', 'N']
  /-- A scalar in quotes. -/
  | quoted {s t : List Char} (h : SpellsText s t) :
      Spells (scalar (String.ofList s)) ('\x27' :: (t ++ ['\x27']))
  /-- A scalar as a bare word that is not and does not start as a notation of absence. -/
  | word {w : List Char} (hne : w ≠ []) (hbare : ∀ c ∈ w, isBare c = true)
      (hnull : w ≠ "NULL".toList) (hmark : ¬ ['\\', 'N'] <+: w) :
      Spells (scalar (String.ofList w)) w
  /-- A list in square brackets. -/
  | square {items : List Item} {gap : List Char} (hgap : IsBlanks gap)
      (hitems : ∀ i ∈ items, Spells i.literal i.text) :
      Spells (list (items.map Item.literal)) ('[' :: (gap ++ (itemsText items ++ [']'])))
  /-- A list in round brackets. -/
  | round {items : List Item} {gap : List Char} (hgap : IsBlanks gap)
      (hitems : ∀ i ∈ items, Spells i.literal i.text) :
      Spells (list (items.map Item.literal)) ('(' :: (gap ++ (itemsText items ++ [')'])))
  /-- A list as a call. -/
  | tupleCall {items : List Item} {name blanks gap : List Char}
      (hname : name.map Char.toLower = "tuple".toList) (hblanks : IsBlanks blanks)
      (hgap : IsBlanks gap) (hitems : ∀ i ∈ items, Spells i.literal i.text) :
      Spells (list (items.map Item.literal))
        (name ++ (blanks ++ '(' :: (gap ++ (itemsText items ++ [')']))))
  /-- A map in braces. -/
  | braces {entries : List (Item × Item)} {gap : List Char} (hgap : IsBlanks gap)
      (hkeys : ∀ e ∈ entries, Spells e.1.literal e.1.text)
      (hvalues : ∀ e ∈ entries, Spells e.2.literal e.2.text) :
      Spells (map (entries.map fun e => (e.1.literal, e.2.literal)))
        ('\x7b' :: (gap ++ (entriesText entries ++ ['\x7d'])))
  /-- A map as a call, with keys and values in turn. -/
  | mapCall {entries : List (Item × Item)} {name blanks gap : List Char}
      (hname : name.map Char.toLower = "map".toList) (hblanks : IsBlanks blanks)
      (hgap : IsBlanks gap) (hkeys : ∀ e ∈ entries, Spells e.1.literal e.1.text)
      (hvalues : ∀ e ∈ entries, Spells e.2.literal e.2.text) :
      Spells (map (entries.map fun e => (e.1.literal, e.2.literal)))
        (name ++ (blanks ++ '(' :: (gap ++ (itemsText (entries.flatMap fun e => [e.1, e.2]) ++
          [')']))))

/-! ## What follows a literal -/

/-- The marks that stand after a literal. -/
def closers : List Char := [',', ':', ']', ')', '\x7d']

/-- What stands after a literal in every spelling: a mark with blanks in front or without, or
    blanks alone. -/
def Ends (rest : List Char) : Prop :=
  ∀ c ∈ (Text.skipBlanks rest).head?, c ∈ closers

theorem ends_blanks {gap : List Char} (hgap : IsBlanks gap) : Ends gap := by
  have hskip := Text.skipBlanks_append hgap []
  rw [List.append_nil] at hskip
  rw [Ends, hskip]
  intro c hc
  cases hc

/-- Blanks before a mark are skipped up to the mark. -/
theorem skipBlanks_closer {gap : List Char} (hgap : IsBlanks gap) {c : Char} (hc : c ∈ closers)
    (r : List Char) : Text.skipBlanks (gap ++ c :: r) = c :: r := by
  have hall := List.all_eq_true.1 (by decide : closers.all (fun c => !Text.isBlank c) = true) c hc
  rw [Text.skipBlanks_append hgap]
  exact Text.skipBlanks_cons (by simpa using hall) r

theorem ends_closer {gap : List Char} (hgap : IsBlanks gap) {c : Char} (hc : c ∈ closers)
    (r : List Char) : Ends (gap ++ c :: r) := by
  rw [Ends, skipBlanks_closer hgap hc]
  intro d hd
  cases hd
  exact hc

/-- The first character after a literal is a mark or a blank. -/
theorem Ends.head {rest : List Char} (h : Ends rest) {c : Char} (hc : c ∈ rest.head?) :
    c ∈ closers ++ [' ', '\t', '\n', '\r'] := by
  cases rest with
  | nil => cases hc
  | cons d r =>
    cases hc
    cases hblank : Text.isBlank c with
    | false =>
      rw [Ends, Text.skipBlanks_cons hblank] at h
      exact List.mem_append_left _ (h c rfl)
    | true =>
      simp only [Text.isBlank, Bool.or_eq_true, decide_eq_true_eq] at hblank
      rcases hblank with ((rfl | rfl) | rfl) | rfl <;> decide

theorem Ends.stops {rest : List Char} (h : Ends rest) : Stops rest := by
  intro c hc
  have hall := List.all_eq_true.1 (by decide : (closers ++ [' ', '\t', '\n', '\r']).all
    (fun c => !isBare c && c ≠ '\x27') = true) c (h.head hc)
  simpa using hall

/-! ## Bare words -/

/-- A word that starts with a name is the name and more of the word. -/
theorem of_ignoringCase_word {name w rest s : List Char}
    (hname : ∀ c ∈ name, ∀ d ∈ rest.head?, d.toLower ≠ c)
    (h : Reader.ignoringCase name (w ++ rest) = some ((), s)) : ∃ u, u <:+ w ∧ s = u ++ rest := by
  induction name generalizing w with
  | nil =>
    cases h
    exact ⟨w, List.suffix_refl w, rfl⟩
  | cons c name ih =>
    cases w with
    | nil =>
      cases rest with
      | nil => cases h
      | cons d r =>
        rw [List.nil_append, Reader.ignoringCase, if_neg (hname c List.mem_cons_self d rfl)] at h
        cases h
    | cons d w =>
      rw [List.cons_append, Reader.ignoringCase] at h
      by_cases hd : d.toLower = c
      · rw [if_pos hd] at h
        rcases ih (fun c hc => hname c (List.mem_cons_of_mem _ hc)) h with ⟨u, hu, hs⟩
        exact ⟨u, hu.trans (List.suffix_cons d w), hs⟩
      · rw [if_neg hd] at h
        cases h

/-- A bare word and what follows it are no call. -/
theorem ignoringCase_word {name w rest : List Char} (hname : name.all Char.isLower = true)
    (hbare : ∀ c ∈ w, isBare c = true) (hrest : Ends rest) {s : List Char}
    (h : Reader.ignoringCase name (w ++ rest) = some ((), s)) (item : Reader Literal) :
    itemsReader '(' ')' item (Text.skipBlanks s) = none := by
  have hother : ∀ c ∈ name, ∀ d ∈ rest.head?, d.toLower ≠ c := by
    intro c hc d hd
    have hlower := List.all_eq_true.1 hname c hc
    have hall := List.all_eq_true.1 (by decide : (closers ++ [' ', '\t', '\n', '\r']).all
      (fun d => !d.toLower.isLower) = true) d (hrest.head hd)
    rintro rfl
    simp [hlower] at hall
  rcases of_ignoringCase_word hother h with ⟨u, hu, rfl⟩
  -- What is left of the word starts with no bracket, and what follows it with no opening one.
  have hopening : ∀ c ∈ (Text.skipBlanks (u ++ rest)).head?, c ≠ '(' := by
    cases u with
    | nil =>
      intro c hc hopen
      have hcloser := hrest c hc
      rw [hopen] at hcloser
      exact absurd hcloser (by decide)
    | cons d u =>
      have hd := hbare d (hu.subset List.mem_cons_self)
      rw [List.cons_append, Text.skipBlanks_cons (isBlank_of_isBare hd)]
      intro c hc hopen
      cases hc
      rw [hopen] at hd
      exact absurd hd (by decide)
  rw [itemsReader, Reader.enclosed]
  cases hskip : Text.skipBlanks (u ++ rest) with
  | nil => rfl
  | cons c r =>
    rw [Reader.char_cons_of_ne (hopening c (by rw [hskip]; rfl))]
    rfl

/-- A bare word is no absence, unless it is the word for it or starts with the mark. -/
theorem nullReader_word {w rest : List Char} (hnull : w ≠ "NULL".toList)
    (hmark : ¬ ['\\', 'N'] <+: w) (hbare : ∀ c ∈ w, isBare c = true) (hrest : Ends rest) :
    nullReader (w ++ rest) = none := by
  -- Neither notation can reach from the word into what follows.
  have hreach {t r : List Char} (ht : t.all isBare = true)
      (h : Reader.exactly t (w ++ rest) = some ((), r)) : ∃ u, w = t ++ u ∧ r = u ++ rest := by
    rcases List.append_eq_append_iff.1 (Reader.eq_append_of_exactly h) with
      ⟨u, hw, hr⟩ | ⟨u, hw, hr⟩
    · cases u with
      | nil => exact ⟨[], by simpa using hw.symm, by simpa using hr.symm⟩
      | cons c u =>
        have hc := List.all_eq_true.1 ht c (by rw [hw]; simp)
        have hstop := (hrest.stops c (by rw [hr]; rfl)).1
        rw [hc] at hstop
        cases hstop
    · exact ⟨u, hw, hr⟩
  have hword : ∀ r, Reader.exactly "NULL".toList (w ++ rest) = some ((), r) →
      ∃ c u, r = c :: u ∧ isBare c = true := by
    intro r h
    rcases hreach (by decide) h with ⟨u, hw, rfl⟩
    cases u with
    | nil => exact absurd (by simpa using hw) hnull
    | cons c u => exact ⟨c, u ++ rest, rfl, hbare c (by rw [hw]; simp)⟩
  have hno : Reader.exactly ['\\', 'N'] (w ++ rest) = none := by
    cases h : Reader.exactly ['\\', 'N'] (w ++ rest) with
    | none => rfl
    | some p =>
      rcases hreach (by decide) h with ⟨u, hw, -⟩
      exact absurd ⟨u, hw.symm⟩ hmark
  rw [nullReader, hno]
  cases h : Reader.exactly "NULL".toList (w ++ rest) with
  | none => rfl
  | some p =>
    rcases hword p.2 h with ⟨c, u, hr, hc⟩
    obtain ⟨⟨⟩, r⟩ := p
    subst hr
    simp [hc]

/-- A bare word is read as a scalar where it ends. -/
theorem readerTo_word {w rest : List Char} (hne : w ≠ []) (hbare : ∀ c ∈ w, isBare c = true)
    (hnull : w ≠ "NULL".toList) (hmark : ¬ ['\\', 'N'] <+: w) (hrest : Ends rest) (depth : Nat) :
    readerTo (depth + 1) (w ++ rest) = some (scalar (String.ofList w), rest) := by
  refine readerTo_bare hne hbare (fun c hc => (hrest.stops c hc).1)
    (nullReader_word hnull hmark hbare hrest) ?_ ?_
  · rw [mapCallReader]
    cases h : Reader.ignoringCase "map".toList (w ++ rest) with
    | none => rfl
    | some p =>
      have hcall := ignoringCase_word (by decide) hbare hrest h (readerTo depth)
      simp only [Option.bind_eq_bind, Option.bind_some, hcall, Option.bind_none]
  · rw [tupleCallReader]
    cases h : Reader.ignoringCase "tuple".toList (w ++ rest) with
    | none => rfl
    | some p =>
      have hcall := ignoringCase_word (by decide) hbare hrest h (readerTo depth)
      simp only [Option.bind_eq_bind, Option.bind_some, hcall, Option.bind_none]

/-! ## Spellings -/

/-- A spelling does not start with a blank. -/
theorem Spells.starts {l : Literal} {s : List Char} (h : Spells l s) (r : List Char) :
    Text.skipBlanks (s ++ r) = s ++ r := by
  have hcall {name t : List Char} {c : Char} {u : List Char}
      (hname : name.map Char.toLower = c :: u) (hc : c = 'm' ∨ c = 't') :
      Text.skipBlanks (name ++ t ++ r) = name ++ t ++ r := by
    cases name with
    | nil => cases hname
    | cons d name =>
      refine Text.skipBlanks_cons ?_ _
      have hd : d.toLower = c := (List.cons.inj hname).1
      cases hblank : Text.isBlank d with
      | false => rfl
      | true =>
        simp only [Text.isBlank, Bool.or_eq_true, decide_eq_true_eq] at hblank
        subst hd
        rcases hblank with ((rfl | rfl) | rfl) | rfl <;> exact absurd hc (by decide)
  cases h with
  | null => exact Text.skipBlanks_cons (by decide) _
  | mark => exact Text.skipBlanks_cons (by decide) _
  | quoted _ => exact Text.skipBlanks_cons (by decide) _
  | word hne hbare _ _ =>
    cases s with
    | nil => exact absurd rfl hne
    | cons c w => exact Text.skipBlanks_cons (isBlank_of_isBare (hbare c List.mem_cons_self)) _
  | square _ _ => exact Text.skipBlanks_cons (by decide) _
  | round _ _ => exact Text.skipBlanks_cons (by decide) _
  | tupleCall hname _ _ _ => exact hcall hname (Or.inr rfl)
  | braces _ _ _ => exact Text.skipBlanks_cons (by decide) _
  | mapCall hname _ _ _ _ => exact hcall hname (Or.inl rfl)

/-- A text is read as a literal up to its end, if brackets may nest as deep as it is long. -/
def Reads (l : Literal) (s : List Char) : Prop :=
  ∀ depth rest, s.length < depth → Ends rest → readerTo depth (s ++ rest) = some (l, rest)

/-- No text is read where brackets may not nest at all. -/
theorem reads_of_succ {l : Literal} {s : List Char}
    (h : ∀ depth rest, s.length ≤ depth → Ends rest →
      readerTo (depth + 1) (s ++ rest) = some (l, rest)) : Reads l s := by
  intro depth rest hdepth hrest
  cases depth with
  | zero => cases hdepth
  | succ depth => exact h depth rest (Nat.le_of_lt_succ hdepth) hrest

/-- An item whose text is read up to its end is read with the blanks around it. -/
theorem spaced_written {i : Item} (hspells : Spells i.literal i.text)
    (hreads : Reads i.literal i.text) {depth : Nat} (hdepth : i.text.length < depth)
    {c : Char} (hc : c ∈ closers) (r : List Char) :
    Reader.spaced (readerTo depth) (i.written ++ c :: r) = some (i.literal, c :: r) := by
  rw [Reader.spaced, Item.written, List.append_assoc, List.append_assoc,
    Text.skipBlanks_append i.isBlanks_before, hspells.starts,
    hreads depth _ hdepth (ends_closer i.isBlanks_after hc r)]
  simp only [Option.bind_eq_bind, Option.bind_some, skipBlanks_closer i.isBlanks_after hc]
  rfl

section Enclosed

variable {α β : Type} {xs : List α} {f : α → List Char} {g : α → β} {item : Reader β}

/-- What is read wherever a mark follows is read between brackets, with commas between. -/
theorem enclosed_intercalate {gap : List Char} (hgap : IsBlanks gap) {closing : Char}
    (hclosing : closing = ']' ∨ closing = ')' ∨ closing = '\x7d')
    (hskip : ∀ s, item (Text.skipBlanks s) = item s) (hnone : ∀ r, item (closing :: r) = none)
    (hitems : ∀ x ∈ xs, ∀ c ∈ closers, ∀ r, item (f x ++ c :: r) = some (g x, c :: r))
    (opening : Char) (rest : List Char) :
    Reader.enclosed opening closing (Reader.separated (Reader.char ',') item)
        (opening :: (gap ++ ([','].intercalate (xs.map f) ++ closing :: rest))) =
      some (xs.map g, rest) := by
  have hmark : Text.isBlank closing = false ∧ closing ≠ ',' ∧ closing ∈ closers := by
    rcases hclosing with rfl | rfl | rfl <;> decide
  have hcloser {d : Char} (hd : d = ',' ∨ d = closing) : d ∈ closers := by
    rcases hd with rfl | rfl
    · decide
    · exact hmark.2.2
  cases xs with
  | nil => exact Reader.enclosed_separated_nil hgap hmark.1 hnone opening rest
  | cons x xs =>
    rw [List.map_cons, intercalate_cons, List.append_assoc, List.flatMap_map]
    exact Reader.enclosed_separated_flatMap hgap hmark.1 hskip
      (fun r => Reader.char_cons_of_ne hmark.2.1 r)
      (fun d r hd => hitems x List.mem_cons_self d (hcloser hd) r)
      (fun y hy d r hd => ⟨_, Reader.char_cons ',' _,
        hitems y (List.mem_cons_of_mem x hy) d (hcloser hd) r⟩) opening rest

end Enclosed

variable {items : List Item} {entries : List (Item × Item)} {depth : Nat} {gap : List Char}

/-- No item is there before the closing bracket. -/
theorem spaced_closing {closing : Char}
    (hclosing : closing = ']' ∨ closing = ')' ∨ closing = '\x7d') (r : List Char) :
    Reader.spaced (readerTo depth) (closing :: r) = none := by
  have hblank : Text.isBlank closing = false := by
    rcases hclosing with rfl | rfl | rfl <;> decide
  rw [Reader.spaced, Text.skipBlanks_cons hblank, readerTo_closing hclosing]
  rfl

theorem itemsReader_itemsText (hgap : IsBlanks gap)
    (hitems : ∀ i ∈ items, ∀ c ∈ closers, ∀ r,
      Reader.spaced (readerTo depth) (i.written ++ c :: r) = some (i.literal, c :: r))
    (opening : Char) {closing : Char} (hclosing : closing = ']' ∨ closing = ')')
    (rest : List Char) :
    itemsReader opening closing (readerTo depth)
        (opening :: (gap ++ (itemsText items ++ closing :: rest))) =
      some (items.map Item.literal, rest) := by
  have hclosing : closing = ']' ∨ closing = ')' ∨ closing = '\x7d' := hclosing.imp_right Or.inl
  exact enclosed_intercalate hgap hclosing (spaced_skipBlanks _) (spaced_closing hclosing) hitems
    opening rest

theorem bracesReader_entriesText (hgap : IsBlanks gap)
    (hkeys : ∀ e ∈ entries, ∀ c ∈ closers, ∀ r,
      Reader.spaced (readerTo depth) (e.1.written ++ c :: r) = some (e.1.literal, c :: r))
    (hvalues : ∀ e ∈ entries, ∀ c ∈ closers, ∀ r,
      Reader.spaced (readerTo depth) (e.2.written ++ c :: r) = some (e.2.literal, c :: r))
    (rest : List Char) :
    bracesReader (readerTo depth) ('\x7b' :: (gap ++ (entriesText entries ++ '\x7d' :: rest))) =
      some (map (entries.map fun e => (e.1.literal, e.2.literal)), rest) := by
  have hentries : ∀ e ∈ entries, ∀ c ∈ closers, ∀ r,
      Reader.pairOf (Reader.spaced (readerTo depth)) (Reader.char ':')
          (Reader.spaced (readerTo depth)) ((e.1.written ++ ':' :: e.2.written) ++ c :: r) =
        some ((e.1.literal, e.2.literal), c :: r) := by
    intro e he c hc r
    rw [List.append_assoc, List.cons_append, Reader.pairOf, hkeys e he ':' (by decide)]
    simp only [Option.bind_eq_bind, Option.bind_some, Reader.char_cons, hvalues e he c hc]
    rfl
  have hread := enclosed_intercalate hgap (Or.inr (Or.inr rfl))
    (fun s => by rw [Reader.pairOf, spaced_skipBlanks]; rfl)
    (fun r => by rw [Reader.pairOf, spaced_closing (Or.inr (Or.inr rfl))]; rfl) hentries '\x7b' rest
  rw [bracesReader, entriesText, hread]
  rfl

theorem length_text_le {i : Item} (hi : i ∈ items) : i.text.length ≤ (itemsText items).length := by
  have hle := length_le_intercalate [','] (List.mem_map_of_mem hi : i.written ∈ _)
  simp only [Item.written, List.length_append] at hle
  rw [itemsText]
  omega

theorem length_text_le_entries {e : Item × Item} (he : e ∈ entries) :
    e.1.text.length ≤ (entriesText entries).length ∧
      e.2.text.length ≤ (entriesText entries).length := by
  have hle : (e.1.written ++ ':' :: e.2.written).length ≤ (entriesText entries).length :=
    length_le_intercalate [','] (List.mem_map.2 ⟨e, he, rfl⟩)
  simp only [Item.written, List.length_append, List.length_cons] at hle
  constructor <;> omega

/-- Keys and values in turn are the keys and values of the entries. -/
theorem mem_turns {P : Item → Prop} (hkeys : ∀ e ∈ entries, P e.1)
    (hvalues : ∀ e ∈ entries, P e.2) : ∀ i ∈ entries.flatMap fun e => [e.1, e.2], P i := by
  intro i hi
  rcases List.mem_flatMap.1 hi with ⟨e, he, hi⟩
  simp only [List.mem_cons, List.not_mem_nil, or_false] at hi
  rcases hi with rfl | rfl
  · exact hkeys e he
  · exact hvalues e he

/-- A spelling is read up to its end, if brackets may nest as deep as it is long. -/
theorem Spells.reads {l : Literal} {s : List Char} (h : Spells l s) : Reads l s := by
  -- What stands between brackets is read one level deeper, where it is short enough.
  have hitems {items : List Item} {depth : Nat} (hspells : ∀ i ∈ items, Spells i.literal i.text)
      (ih : ∀ i ∈ items, Reads i.literal i.text) (hdepth : (itemsText items).length < depth) :
      ∀ i ∈ items, ∀ c ∈ closers, ∀ r,
        Reader.spaced (readerTo depth) (i.written ++ c :: r) = some (i.literal, c :: r) := by
    intro i hi c hc r
    have hle := length_text_le hi
    exact spaced_written (hspells i hi) (ih i hi) (by omega) hc r
  induction h with
  | null => exact fun depth rest hdepth hrest => notates_null.reads depth rest hdepth hrest.stops
  | mark => exact reads_of_succ fun depth rest _ _ => rfl
  | @quoted s t h =>
    refine reads_of_succ fun depth rest hdepth hrest => ?_
    have hnull : nullReader ('\x27' :: (t ++ '\x27' :: rest)) = none := rfl
    have hquoted : quotedReader ('\x27' :: (t ++ '\x27' :: rest)) =
        some (scalar (String.ofList s), rest) := by
      rw [quotedReader, Text.readQuoted,
        Text.readQuotedBody_of_spells h fun c hc => (hrest.stops c hc).2]
      rfl
    rw [List.cons_append, List.append_assoc, List.singleton_append]
    simp only [readerTo, hnull, hquoted]
    rfl
  | word hne hbare hnull hmark =>
    exact reads_of_succ fun depth rest _ hrest => readerTo_word hne hbare hnull hmark hrest depth
  | square hgap hspells ih =>
    refine reads_of_succ fun depth rest hdepth hrest => ?_
    simp only [List.length_cons, List.length_append] at hdepth
    rw [List.cons_append, List.append_assoc, List.append_assoc, List.singleton_append]
    exact readerTo_square
      (itemsReader_itemsText hgap (hitems hspells ih (by omega)) '[' (Or.inl rfl) rest)
  | round hgap hspells ih =>
    refine reads_of_succ fun depth rest hdepth hrest => ?_
    simp only [List.length_cons, List.length_append] at hdepth
    rw [List.cons_append, List.append_assoc, List.append_assoc, List.singleton_append]
    exact readerTo_round
      (itemsReader_itemsText hgap (hitems hspells ih (by omega)) '(' (Or.inr rfl) rest)
  | tupleCall hname hblanks hgap hspells ih =>
    refine reads_of_succ fun depth rest hdepth hrest => ?_
    simp only [List.length_cons, List.length_append] at hdepth
    rw [List.append_assoc, List.append_assoc, List.cons_append, List.append_assoc,
      List.append_assoc, List.singleton_append]
    exact readerTo_tupleCall hname hblanks
      (itemsReader_itemsText hgap (hitems hspells ih (by omega)) '(' (Or.inr rfl) rest)
  | braces hgap hkeys hvalues ihkeys ihvalues =>
    refine reads_of_succ fun depth rest hdepth hrest => ?_
    simp only [List.length_cons, List.length_append] at hdepth
    rw [List.cons_append, List.append_assoc, List.append_assoc, List.singleton_append]
    refine readerTo_braces (bracesReader_entriesText hgap ?_ ?_ rest)
    · intro e he c hc r
      have hle := length_text_le_entries he
      exact spaced_written (hkeys e he) (ihkeys e he) (by omega) hc r
    · intro e he c hc r
      have hle := length_text_le_entries he
      exact spaced_written (hvalues e he) (ihvalues e he) (by omega) hc r
  | mapCall hname hblanks hgap hkeys hvalues ihkeys ihvalues =>
    refine reads_of_succ fun depth rest hdepth hrest => ?_
    simp only [List.length_cons, List.length_append] at hdepth
    rw [List.append_assoc, List.append_assoc, List.cons_append, List.append_assoc,
      List.append_assoc, List.singleton_append]
    refine readerTo_mapCall hname hblanks
      (itemsReader_itemsText hgap (hitems (mem_turns hkeys hvalues) (mem_turns ihkeys ihvalues)
        (by omega)) '(' (Or.inr rfl) rest) ?_
    rw [List.map_flatMap]
    exact pairUp?_flatMap _ _ _

mutual

/-- Every literal has a spelling. -/
theorem exists_spells : ∀ l : Literal, ∃ s, Spells l s
  | .null => ⟨_, .null⟩
  | .scalar s => by
    rcases Text.exists_spellsText s.toList with ⟨t, ht⟩
    have hquoted := Spells.quoted ht
    rw [String.ofList_toList] at hquoted
    exact ⟨_, hquoted⟩
  | .list ls => by
    rcases exists_items ls with ⟨items, rfl, hitems⟩
    exact ⟨_, .square Text.isBlanks_nil hitems⟩
  | .map es => by
    rcases exists_entries es with ⟨entries, rfl, hkeys, hvalues⟩
    exact ⟨_, .braces Text.isBlanks_nil hkeys hvalues⟩

/-- Literals have spellings one by one. -/
theorem exists_items : ∀ ls : List Literal, ∃ items : List Item,
    items.map Item.literal = ls ∧ ∀ i ∈ items, Spells i.literal i.text
  | [] => ⟨[], rfl, List.forall_mem_nil _⟩
  | l :: ls => by
    rcases exists_spells l with ⟨s, hs⟩
    rcases exists_items ls with ⟨items, rfl, hitems⟩
    exact ⟨.plain l s :: items, rfl, List.forall_mem_cons.2 ⟨hs, hitems⟩⟩

/-- Keys and values have spellings one by one. -/
theorem exists_entries : ∀ es : List (Literal × Literal), ∃ entries : List (Item × Item),
    entries.map (fun e => (e.1.literal, e.2.literal)) = es ∧
      (∀ e ∈ entries, Spells e.1.literal e.1.text) ∧
      ∀ e ∈ entries, Spells e.2.literal e.2.text
  | [] => ⟨[], rfl, List.forall_mem_nil _, List.forall_mem_nil _⟩
  | (k, l) :: es => by
    rcases exists_spells k with ⟨s, hs⟩
    rcases exists_spells l with ⟨t, ht⟩
    rcases exists_entries es with ⟨entries, rfl, hkeys, hvalues⟩
    exact ⟨(.plain k s, .plain l t) :: entries, rfl, List.forall_mem_cons.2 ⟨hs, hkeys⟩,
      List.forall_mem_cons.2 ⟨ht, hvalues⟩⟩

end

/-- Whatever the spelling of a literal and whatever blanks stand around it, it is the literal
    that is read. So every type makes the same of it, and the same as of what a client writes
    for a value with that literal. -/
theorem read_of_spells {l : Literal} {s before after : List Char} (h : Spells l s)
    (hbefore : IsBlanks before) (hafter : IsBlanks after) :
    read (before ++ (s ++ after)) = .ok l ∧
      ∀ t : ColumnType, t.decodeSql (before ++ (s ++ after)) = t.decodeLiteral l ∧
        ∀ v, t.literalOf v = l →
          t.decodeSql (t.sqlOf v) = t.decodeSql (before ++ (s ++ after)) := by
  have hread : read (before ++ (s ++ after)) = .ok l := by
    have hlength : s.length < (s ++ after).length + 1 := by
      rw [List.length_append]
      omega
    have hskip := Text.skipBlanks_append hafter []
    rw [List.append_nil] at hskip
    rw [read, Reader.spaced, Text.skipBlanks_append hbefore, h.starts, reader,
      h.reads _ after hlength (ends_blanks hafter)]
    simp only [Option.bind_eq_bind, Option.bind_some, hskip]
    rfl
  have hdecode (t : ColumnType) : t.decodeSql (before ++ (s ++ after)) = t.decodeLiteral l := by
    rw [ColumnType.decodeSql, hread]
  refine ⟨hread, fun t => ⟨hdecode t, fun v hv => ?_⟩⟩
  rw [hdecode, ColumnType.decodeSql, read_of_notates (t.notates_sqlOf v), hv]

/-- A call in capitals with a bare word that could be one, and a map in braces with a doubled
    quote and a mark of absence, blanks among them. -/
theorem read_mixed_spelling :
    read " TUPLE\t( map ,\x7b'it''s' : \\N\x7d)".toList =
      .ok (list [scalar "map", map [(scalar "it's", null)]]) := by
  have hkey : Spells (scalar "it's") "'it''s'".toList :=
    .quoted (.cons (.plain (by decide) (by decide)) (.cons (.plain (by decide) (by decide))
      (.cons (.doubled rfl) (.cons (.plain (by decide) (by decide)) .nil))))
  have hentries := @Spells.braces
    [(⟨scalar "it's", [], "'it''s'".toList, [' '], by decide, by decide⟩,
      ⟨null, [' '], ['\\', 'N'], [], by decide, by decide⟩)] [] Text.isBlanks_nil
    (List.forall_mem_singleton.2 hkey) (List.forall_mem_singleton.2 .mark)
  have hword : Spells (scalar "map") "map".toList :=
    .word (by decide) (List.all_eq_true.1 (by decide)) (by decide) (by decide)
  have hcall := @Spells.tupleCall
    [⟨scalar "map", [], "map".toList, [' '], by decide, by decide⟩,
      ⟨map [(scalar "it's", null)], [], "\x7b'it''s' : \\N\x7d".toList, [], by decide, by decide⟩]
    "TUPLE".toList ['\t'] [' '] (by decide) (by decide) (by decide)
    (List.forall_mem_cons.2 ⟨hword, List.forall_mem_singleton.2 hentries⟩)
  exact (read_of_spells hcall (by decide : IsBlanks [' ']) Text.isBlanks_nil).1

end Literal

end ColumnStore
