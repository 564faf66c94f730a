import ColumnStore.Literal.Reader
import ColumnStore.Proofs.Text.Reader

/-!
# Notations of Literals

A text is a notation of a literal if it is read as it wherever it stands: whatever
follows, as long as it does not run on with the literal, and however deep brackets
may nest, as long as that is deep enough for the text. Arrays, tuples and maps of
such texts are such texts again, and a quoted text is one whatever it holds.

## Main definitions

* `Literal.Stops`: What a literal does not run on with.
* `Literal.Notates`: A text is a notation of a literal.
* `Literal.Opens`: How a word starts that is nothing but a word.

## Theorems

* `Literal.notates_null`, `Literal.notates_quote`, `Literal.notates_word`: The
  notations without brackets.
* `Literal.readerTo_bare`, `Literal.readerTo_square`, `Literal.readerTo_mapCall`: What is
  read if no reader before takes it.
* `Literal.itemsReader_commaSeparated`: Notations between brackets are read.
* `Literal.notates_array`, `Literal.notates_tuple`, `Literal.notates_map`: The
  notations with brackets.
* `Literal.read_of_notates`: A notation that stands alone is read.
-/

namespace ColumnStore

namespace Literal

open Text (Reader)

/-- What a literal does not run on with: nothing, or a character that is neither one
    of a bare word nor a quote. -/
def Stops (rest : List Char) : Prop :=
  ∀ c ∈ rest.head?, isBare c = false ∧ c ≠ '\x27'

theorem stops_nil : Stops [] := by
  intro c hc
  cases hc

theorem stops_cons {c : Char} (hbare : isBare c = false) (hquote : c ≠ '\x27') (r : List Char) :
    Stops (c :: r) := by
  intro d hd
  rw [← Option.some.inj hd]
  exact ⟨hbare, hquote⟩

/-- A text that is read as a literal wherever it stands. -/
structure Notates (s : List Char) (l : Literal) : Prop where
  /-- It does not start with a blank. -/
  starts : ∃ c, s.head? = some c ∧ Text.isBlank c = false
  /-- It is read up to its end, if brackets may nest as deep as it is long. -/
  reads : ∀ depth rest, s.length < depth → Stops rest →
    readerTo depth (s ++ rest) = some (l, rest)

/-- Blanks in front of a notation are all that is skipped. -/
theorem Notates.skipBlanks_append {s : List Char} {l : Literal} (h : Notates s l)
    (r : List Char) : Text.skipBlanks (s ++ r) = s ++ r := by
  rcases h.starts with ⟨c, hs, hc⟩
  cases s with
  | nil => cases hs
  | cons d s =>
    have hd : d = c := Option.some.inj hs
    rw [hd]
    exact Text.skipBlanks_cons hc (s ++ r)

/-- A notation is read with the blanks after it. -/
theorem Notates.spaced {s : List Char} {l : Literal} (h : Notates s l) {depth : Nat}
    (hdepth : s.length < depth) {rest : List Char} (hrest : Stops rest) :
    Reader.spaced (readerTo depth) (s ++ rest) = some (l, Text.skipBlanks rest) := by
  rw [Reader.spaced, h.skipBlanks_append, h.reads depth rest hdepth hrest]
  rfl

/-! ## Without brackets -/

/-- The word for the absence of content is its notation. -/
theorem notates_null : Notates "NULL".toList null := by
  refine ⟨⟨'N', rfl, by decide⟩, ?_⟩
  intro depth rest hdepth hrest
  cases depth with
  | zero => omega
  | succ depth =>
    have hnull : nullReader ("NULL".toList ++ rest) = some (null, rest) := by
      rw [nullReader, Reader.exactly_append]
      cases rest with
      | nil => rfl
      | cons c r => simp [(hrest c rfl).1]
    simp only [readerTo, hnull]
    rfl

/-- A quoted text is the notation of a scalar, whatever it holds. -/
theorem notates_quote (s : List Char) : Notates (Text.quote s) (scalar (String.ofList s)) := by
  refine ⟨⟨'\x27', rfl, by decide⟩, ?_⟩
  intro depth rest hdepth hrest
  cases depth with
  | zero => omega
  | succ depth =>
    have hnull : nullReader (Text.quote s ++ rest) = none := rfl
    have hquoted : quotedReader (Text.quote s ++ rest) =
        some (scalar (String.ofList s), rest) := by
      rw [quotedReader, Text.readQuoted_quote s fun c hc => (hrest c hc).2]
      rfl
    simp only [readerTo, hnull, hquoted]
    rfl

/-- How a word starts that is neither the absence of content nor a call: whatever
    follows, no other notation is read. -/
def Opens (w : List Char) : Prop :=
  ∀ r, nullReader (w ++ r) = none ∧ Reader.ignoringCase "map".toList (w ++ r) = none ∧
    Reader.ignoringCase "tuple".toList (w ++ r) = none

/-- A word of bare characters is read as a scalar where it ends, unless it is read as
    something else first. -/
theorem readerTo_bare {depth : Nat} {w rest : List Char} (hne : w ≠ [])
    (hbare : ∀ c ∈ w, isBare c = true) (hrest : ∀ c ∈ rest.head?, isBare c = false)
    (hnull : nullReader (w ++ rest) = none)
    (hmap : mapCallReader (readerTo depth) (w ++ rest) = none)
    (htuple : tupleCallReader (readerTo depth) (w ++ rest) = none) :
    readerTo (depth + 1) (w ++ rest) = some (scalar (String.ofList w), rest) := by
  have hword : bareReader (w ++ rest) = some (scalar (String.ofList w), rest) := by
    rw [bareReader, Reader.while1_append hne hbare hrest]
    rfl
  cases w with
  | nil => exact absurd rfl hne
  | cons c w =>
    -- None of the other readers takes the first character.
    have hc := hbare c List.mem_cons_self
    have hmark : c ≠ '\x27' ∧ c ≠ '[' ∧ c ≠ '(' ∧ c ≠ '\x7b' := by
      refine ⟨?_, ?_, ?_, ?_⟩ <;> (rintro rfl; exact absurd hc (by decide))
    have hquoted : quotedReader (c :: w ++ rest) = none := by
      simp [quotedReader, Text.readQuoted, hmark.1]
    have hbrackets {α : Type} {opening closing : Char} (hd : c ≠ opening) (item : Reader α) :
        Reader.enclosed opening closing item (c :: w ++ rest) = none := by
      rw [Reader.enclosed, List.cons_append, Reader.char_cons_of_ne hd]
      rfl
    simp only [readerTo, hnull, hquoted, itemsReader, bracesReader, hmap, htuple,
      hbrackets hmark.2.1, hbrackets hmark.2.2.1, hbrackets hmark.2.2.2, hword]
    rfl

theorem isBlank_of_isBare {c : Char} (hc : isBare c = true) : Text.isBlank c = false := by
  cases hblank : Text.isBlank c with
  | false => rfl
  | true => simp [isBare, Text.isSpace_of_isBlank hblank] at hc

/-- A word of bare characters is the notation of a scalar, unless it starts like
    another notation. -/
theorem notates_word {w : List Char} (hne : w ≠ []) (hall : w.all isBare = true)
    (hopens : Opens w) : Notates w (scalar (String.ofList w)) := by
  have hbare := List.all_eq_true.1 hall
  constructor
  · cases w with
    | nil => exact absurd rfl hne
    | cons c w => exact ⟨c, rfl, isBlank_of_isBare (hbare c List.mem_cons_self)⟩
  · intro depth rest hdepth hrest
    cases depth with
    | zero => omega
    | succ depth =>
      rcases hopens rest with ⟨hnull, hmap, htuple⟩
      refine readerTo_bare hne hbare (fun c hc => (hrest c hc).1) hnull ?_ ?_
      · rw [mapCallReader, hmap]
        rfl
      · rw [tupleCallReader, htuple]
        rfl

/-! ## With brackets -/

/-- No notation of absence starts with another character than its own. -/
theorem nullReader_cons {c : Char} (hN : c ≠ 'N') (hbackslash : c ≠ '\\') (r : List Char) :
    nullReader (c :: r) = none := by
  have hword : Reader.exactly "NULL".toList (c :: r) = none := if_neg hN
  have hmark : Reader.exactly ['\\', 'N'] (c :: r) = none := if_neg hbackslash
  rw [nullReader, hword, hmark]
  rfl

section Brackets

variable {depth : Nat} {items : List Literal} {r rest : List Char}

theorem readerTo_square (h : itemsReader '[' ']' (readerTo depth) ('[' :: r) = some (items, rest)) :
    readerTo (depth + 1) ('[' :: r) = some (list items, rest) := by
  have hnull : nullReader ('[' :: r) = none := rfl
  have hquoted : quotedReader ('[' :: r) = none := rfl
  simp only [readerTo, hnull, hquoted, h]
  rfl

theorem readerTo_round (h : itemsReader '(' ')' (readerTo depth) ('(' :: r) = some (items, rest)) :
    readerTo (depth + 1) ('(' :: r) = some (list items, rest) := by
  have hnull : nullReader ('(' :: r) = none := rfl
  have hquoted : quotedReader ('(' :: r) = none := rfl
  have harray : itemsReader '[' ']' (readerTo depth) ('(' :: r) = none := rfl
  have hmap : mapCallReader (readerTo depth) ('(' :: r) = none := rfl
  have htuple : tupleCallReader (readerTo depth) ('(' :: r) = none := rfl
  simp only [readerTo, hnull, hquoted, harray, hmap, htuple, h]
  rfl

theorem readerTo_braces {entries : List (Literal × Literal)}
    (h : bracesReader (readerTo depth) ('\x7b' :: r) = some (map entries, rest)) :
    readerTo (depth + 1) ('\x7b' :: r) = some (map entries, rest) := by
  have hnull : nullReader ('\x7b' :: r) = none := rfl
  have hquoted : quotedReader ('\x7b' :: r) = none := rfl
  have harray : itemsReader '[' ']' (readerTo depth) ('\x7b' :: r) = none := rfl
  have hmap : mapCallReader (readerTo depth) ('\x7b' :: r) = none := rfl
  have htuple : tupleCallReader (readerTo depth) ('\x7b' :: r) = none := rfl
  have hround : itemsReader '(' ')' (readerTo depth) ('\x7b' :: r) = none := rfl
  simp only [readerTo, hnull, hquoted, harray, hmap, htuple, hround, h]
  rfl

/-- The word before a call is taken in whatever case it is written. -/
theorem ignoringCase_append {word name : List Char}
    (hword : word.map Char.toLower = name) (r : List Char) :
    Reader.ignoringCase name (word ++ r) = some ((), r) := by
  subst hword
  induction word with
  | nil => rfl
  | cons c word ih => simpa [Reader.ignoringCase] using ih

/-- No other notation starts with the word before a call. -/
theorem readers_of_call (depth : Nat) {c : Char} (hc : c.toLower = 'm' ∨ c.toLower = 't')
    (s : List Char) :
    nullReader (c :: s) = none ∧ quotedReader (c :: s) = none ∧
      itemsReader '[' ']' (readerTo depth) (c :: s) = none := by
  have hne (d : Char) (hd : d.toLower ≠ 'm' ∧ d.toLower ≠ 't') : c ≠ d := by
    rintro rfl
    exact hc.elim hd.1 hd.2
  refine ⟨nullReader_cons (hne 'N' (by decide)) (hne '\\' (by decide)) s, ?_, ?_⟩
  · simp [quotedReader, Text.readQuoted, hne '\x27' (by decide)]
  · rw [itemsReader, Reader.enclosed, Reader.char_cons_of_ne (hne '[' (by decide))]
    rfl

theorem readerTo_mapCall {word gap : List Char} {entries : List (Literal × Literal)}
    (hword : word.map Char.toLower = "map".toList) (hgap : Text.IsBlanks gap)
    (h : itemsReader '(' ')' (readerTo depth) ('(' :: r) = some (items, rest))
    (hpairs : pairUp? items = some entries) :
    readerTo (depth + 1) (word ++ (gap ++ '(' :: r)) = some (map entries, rest) := by
  have hcall : mapCallReader (readerTo depth) (word ++ (gap ++ '(' :: r)) =
      some (map entries, rest) := by
    rw [mapCallReader, ignoringCase_append hword]
    simp only [Option.bind_eq_bind, Option.bind_some, Text.skipBlanks_append hgap,
      Text.skipBlanks_cons (c := '(') rfl, h, hpairs]
    rfl
  cases word with
  | nil => cases hword
  | cons c word =>
    rcases readers_of_call depth (Or.inl (List.cons.inj hword).1)
      (word ++ (gap ++ '(' :: r)) with ⟨hnull, hquoted, harray⟩
    simp only [List.cons_append] at hcall ⊢
    simp only [readerTo, hnull, hquoted, harray, hcall]
    rfl

theorem readerTo_tupleCall {word gap : List Char}
    (hword : word.map Char.toLower = "tuple".toList) (hgap : Text.IsBlanks gap)
    (h : itemsReader '(' ')' (readerTo depth) ('(' :: r) = some (items, rest)) :
    readerTo (depth + 1) (word ++ (gap ++ '(' :: r)) = some (list items, rest) := by
  have hcall : tupleCallReader (readerTo depth) (word ++ (gap ++ '(' :: r)) =
      some (list items, rest) := by
    rw [tupleCallReader, ignoringCase_append hword]
    simp only [Option.bind_eq_bind, Option.bind_some, Text.skipBlanks_append hgap,
      Text.skipBlanks_cons (c := '(') rfl, h]
    rfl
  cases word with
  | nil => cases hword
  | cons c word =>
    have hc : c.toLower = 't' := (List.cons.inj hword).1
    rcases readers_of_call depth (Or.inr hc) (word ++ (gap ++ '(' :: r)) with
      ⟨hnull, hquoted, harray⟩
    have hmap : Reader.ignoringCase "map".toList (c :: (word ++ (gap ++ '(' :: r))) = none :=
      if_neg (by rw [hc]; decide)
    simp only [List.cons_append] at hcall ⊢
    simp only [readerTo, hnull, hquoted, harray, mapCallReader, hmap, hcall]
    rfl

end Brackets

/-- No literal starts with a closing bracket. -/
theorem readerTo_closing {closing : Char}
    (hc : closing = ']' ∨ closing = ')' ∨ closing = '\x7d') (depth : Nat) (rest : List Char) :
    readerTo depth (closing :: rest) = none := by
  cases depth with
  | zero => rfl
  | succ depth => rcases hc with rfl | rfl | rfl <;> rfl

variable {α : Type} {items : List α} {f : α → List Char} {g : α → Literal}

/-- After a notation between brackets stands a comma or the closing bracket, where it
    stops, with blanks in front or without. -/
theorem Notates.spaced_item {s : List Char} {l : Literal} (h : Notates s l) {depth : Nat}
    (hdepth : s.length < depth) {closing : Char} (hc : closing = ']' ∨ closing = ')')
    {d : Char} (hd : d = ',' ∨ d = closing) (r : List Char) :
    Reader.spaced (readerTo depth) (s ++ d :: r) = some (l, d :: r) ∧
      Reader.spaced (readerTo depth) (' ' :: (s ++ d :: r)) = some (l, d :: r) := by
  have hmark : isBare d = false ∧ d ≠ '\x27' ∧ Text.isBlank d = false := by
    rcases hd with rfl | rfl
    · decide
    · rcases hc with rfl | rfl <;> decide
  have hread := h.spaced hdepth (stops_cons hmark.1 hmark.2.1 r)
  rw [Text.skipBlanks_cons hmark.2.2] at hread
  exact ⟨hread, hread⟩

/-- Blanks in front of an item are skipped. -/
theorem spaced_skipBlanks {β : Type} (item : Reader β) (s : List Char) :
    Reader.spaced item (Text.skipBlanks s) = Reader.spaced item s := by
  rw [Reader.spaced, Text.skipBlanks_skipBlanks]
  rfl

/-- Notations with commas between them are read between brackets. -/
theorem itemsReader_commaSeparated (hitems : ∀ p ∈ items, Notates (f p) (g p)) {depth : Nat}
    (hdepth : ∀ p ∈ items, (f p).length < depth) (opening : Char) {closing : Char}
    (hc : closing = ']' ∨ closing = ')') (rest : List Char) :
    itemsReader opening closing (readerTo depth)
        (opening :: (commaSeparated (items.map f) ++ closing :: rest)) =
      some (items.map g, rest) := by
  have hblank : Text.isBlank closing = false := by
    rcases hc with rfl | rfl <;> decide
  cases items with
  | nil =>
    -- No literal starts with the closing bracket, and so there are no items.
    refine Reader.enclosed_separated_nil Text.isBlanks_nil hblank (fun r => ?_) opening rest
    rw [Reader.spaced, Text.skipBlanks_cons hblank, readerTo_closing (hc.imp_right Or.inl)]
    rfl
  | cons p items =>
    have hcomma : closing ≠ ',' := by
      rcases hc with rfl | rfl <;> decide
    rw [List.map_cons, commaSeparated_cons, List.append_assoc, List.flatMap_map]
    refine Reader.enclosed_separated_flatMap (f := fun q => ' ' :: f q) Text.isBlanks_nil hblank
      (spaced_skipBlanks _) (fun r => Reader.char_cons_of_ne hcomma r) (fun d r hd => ?_)
      (fun q hq d r hd => ⟨_, Reader.char_cons ',' _, ?_⟩) opening rest
    · exact ((hitems p List.mem_cons_self).spaced_item (hdepth p List.mem_cons_self) hc hd r).1
    · have hmem := List.mem_cons_of_mem p hq
      exact ((hitems q hmem).spaced_item (hdepth q hmem) hc hd r).2

/-- A text with notations between brackets is a notation if it is read as soon as what
    the brackets hold is read one level deeper. -/
theorem notates_of_items {s : List Char} {l : Literal} (hitems : ∀ p ∈ items, Notates (f p) (g p))
    (opening : Char) {closing : Char} (hc : closing = ']' ∨ closing = ')')
    (hstarts : ∃ c, s.head? = some c ∧ Text.isBlank c = false)
    (hlength : (commaSeparated (items.map f)).length < s.length)
    (hreads : ∀ depth rest, itemsReader opening closing (readerTo depth)
        (opening :: (commaSeparated (items.map f) ++ closing :: rest)) =
          some (items.map g, rest) →
      readerTo (depth + 1) (s ++ rest) = some (l, rest)) : Notates s l := by
  refine ⟨hstarts, ?_⟩
  intro depth rest hdepth hrest
  cases depth with
  | zero => omega
  | succ depth =>
    -- Each item is shorter than the text, so that one level less is enough for it.
    refine hreads depth rest (itemsReader_commaSeparated hitems ?_ opening hc rest)
    intro p hp
    have hle := length_le_commaSeparated (List.mem_map_of_mem hp : f p ∈ items.map f)
    omega

/-- An array of notations is the notation of a list. -/
theorem notates_array (hitems : ∀ p ∈ items, Notates (f p) (g p)) :
    Notates (arrayLiteral (items.map f)) (list (items.map g)) := by
  refine notates_of_items hitems '[' (Or.inl rfl) ⟨'[', rfl, by decide⟩ ?_ ?_
  · simp only [arrayLiteral, List.length_cons, List.length_append]
    omega
  intro depth rest hread
  have htext : arrayLiteral (items.map f) ++ rest =
      '[' :: (commaSeparated (items.map f) ++ ']' :: rest) := by
    simp [arrayLiteral]
  rw [htext]
  exact readerTo_square hread

/-- Notations in round brackets are the notation of a list. -/
theorem notates_brackets (hitems : ∀ p ∈ items, Notates (f p) (g p)) :
    Notates ('(' :: (commaSeparated (items.map f) ++ [')'])) (list (items.map g)) := by
  refine notates_of_items hitems '(' (Or.inr rfl) ⟨'(', rfl, by decide⟩ ?_ ?_
  · simp only [List.length_cons, List.length_append]
    omega
  intro depth rest hread
  rw [List.cons_append, List.append_assoc, List.singleton_append]
  exact readerTo_round hread

/-- A call with notations is the notation of a list. -/
theorem notates_tupleCall (hitems : ∀ p ∈ items, Notates (f p) (g p)) :
    Notates ("tuple".toList ++ '(' :: (commaSeparated (items.map f) ++ [')']))
      (list (items.map g)) := by
  refine notates_of_items hitems '(' (Or.inr rfl) ⟨'t', rfl, by decide⟩ ?_ ?_
  · simp only [List.length_cons, List.length_append]
    omega
  intro depth rest hread
  rw [List.append_assoc, List.cons_append, List.append_assoc, List.singleton_append]
  have hword : "tuple".toList.map Char.toLower = "tuple".toList := rfl
  have hcall := readerTo_tupleCall hword Text.isBlanks_nil hread
  rwa [List.nil_append] at hcall

/-- A tuple of notations is the notation of a list, a tuple of one item included. -/
theorem notates_tuple (hitems : ∀ p ∈ items, Notates (f p) (g p)) :
    Notates (tupleLiteral (items.map f)) (list (items.map g)) := by
  unfold tupleLiteral
  by_cases hone : (items.map f).length = 1
  · simp only [hone, if_true]
    exact notates_tupleCall hitems
  · simp only [hone, if_false]
    exact notates_brackets hitems

/-- Items in turn are paired up. -/
theorem pairUp?_flatMap {β : Type} (f g : α → β) (xs : List α) :
    pairUp? (xs.flatMap fun x => [f x, g x]) = some (xs.map fun x => (f x, g x)) := by
  induction xs with
  | nil => rfl
  | cons x xs ih =>
    have hcons : (x :: xs).flatMap (fun x => [f x, g x]) =
        f x :: g x :: xs.flatMap fun x => [f x, g x] := rfl
    rw [hcons, pairUp?, ih]
    rfl

/-- A call with notations of keys and of values in turn is the notation of a map. -/
theorem notates_map {entries : List α} {f f' : α → List Char} {g g' : α → Literal}
    (hentries : ∀ e ∈ entries, Notates (f e) (g e) ∧ Notates (f' e) (g' e)) :
    Notates (mapLiteral (entries.flatMap fun e => [f e, f' e]))
      (map (entries.map fun e => (g e, g' e))) := by
  -- The keys and the values in turn are the items of the call.
  have hitems : ∀ p ∈ entries.flatMap (fun e => [(f e, g e), (f' e, g' e)]),
      Notates p.1 p.2 := by
    intro p hp
    rcases List.mem_flatMap.1 hp with ⟨e, he, hp⟩
    simp only [List.mem_cons, List.not_mem_nil, or_false] at hp
    rcases hp with rfl | rfl
    · exact (hentries e he).1
    · exact (hentries e he).2
  have htexts : (entries.flatMap fun e => [f e, f' e]) =
      (entries.flatMap fun e => [(f e, g e), (f' e, g' e)]).map Prod.fst := by
    rw [List.map_flatMap]
    rfl
  have hpairs : pairUp? ((entries.flatMap fun e => [(f e, g e), (f' e, g' e)]).map Prod.snd) =
      some (entries.map fun e => (g e, g' e)) := by
    rw [List.map_flatMap]
    exact pairUp?_flatMap g g' entries
  rw [htexts]
  generalize entries.flatMap (fun e => [(f e, g e), (f' e, g' e)]) = items at hitems hpairs
  refine notates_of_items hitems '(' (Or.inr rfl) ⟨'m', rfl, by decide⟩ ?_ ?_
  · simp only [mapLiteral, List.length_append, List.length_singleton]
    omega
  intro depth rest hread
  have htext : mapLiteral (items.map Prod.fst) ++ rest =
      "map".toList ++ '(' :: (commaSeparated (items.map Prod.fst) ++ ')' :: rest) := by
    simp [mapLiteral]
  rw [htext]
  have hword : "map".toList.map Char.toLower = "map".toList := rfl
  have hcall := readerTo_mapCall hword Text.isBlanks_nil hread hpairs
  rwa [List.nil_append] at hcall

/-- A notation that stands alone is read. -/
theorem read_of_notates {s : List Char} {l : Literal} (h : Notates s l) : read s = .ok l := by
  have hread := h.reads (s.length + 1) [] (Nat.lt_succ_self _) stops_nil
  have hskip := h.skipBlanks_append []
  rw [List.append_nil] at hread hskip
  rw [read, Reader.spaced, hskip, reader, hread]
  rfl

end Literal

end ColumnStore
