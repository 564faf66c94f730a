import ColumnStore.Proofs.Number.Whole
import ColumnStore.Text.Escape
import ColumnStore.Text.Reader
import ColumnStore.Value.Sql

/-!
# What Readers Take

The combinators seen from both sides. A reader that stands before a text that was
written for it takes that text and leaves the rest: a run of characters, a quoted
string, texts with commas between them. And whatever a combinator gave was given by
the readers it is made of.

## Main definitions

* `Text.IsBlanks`: A text of blanks.

## Theorems

* `Text.readQuoted_quote`: A quoted text is read back.
* `Text.length_add_lt_of_readQuotedBody`: What stands in quotes is shorter than its notation.
* `Text.Reader.while1_append`: A run ends where another class of characters begins.
* `Text.Reader.enclosed_separated_flatMap`: Items are read between brackets, with commas
  between them.
* `Text.Reader.separated1_commaSeparated`: Texts with commas between them are read one
  by one.
* `Text.Reader.of_separated1`: All that a list holds was read.
-/

namespace ColumnStore

namespace Text

/-- A character that is neither a quote nor a backslash stands for itself. -/
theorem readQuotedBody_cons {c : Char} (hbackslash : c ≠ '\\') (hquote : c ≠ '\x27')
    (r : List Char) :
    readQuotedBody (c :: r) = (readQuotedBody r).map fun p => (c :: p.1, p.2) := by
  -- Of the ways in which the reader goes on, only the last one does not begin with a
  -- quote or a backslash.
  rw [readQuotedBody.eq_def]
  split
  · next he => cases he
  · next he => exact absurd (List.cons.inj he).1 hquote
  · next he => exact absurd (List.cons.inj he).1 hquote
  · next he => exact absurd (List.cons.inj he).1 hbackslash
  · next he => exact absurd (List.cons.inj he).1 hbackslash
  · next he =>
    rw [(List.cons.inj he).1, (List.cons.inj he).2]

/-- The escaped form of a character inside quotes stands for the character. -/
theorem readQuotedBody_escapeChar (c : Char) (r : List Char) :
    readQuotedBody (escapeChar c ++ r) =
      (readQuotedBody r).map fun p => (c :: p.1, p.2) := by
  unfold escapeChar
  split
  case h_9 hbackslash hquote _ _ _ _ _ _ =>
    exact readQuotedBody_cons hbackslash hquote r
  all_goals simp [readQuotedBody, unescapeChar]

/-- A quoted text is read back up to its closing quote, unless another quote follows
    it at once. -/
theorem readQuoted_quote (s : List Char) {r : List Char} (hr : ∀ c ∈ r.head?, c ≠ '\x27') :
    readQuoted (quote s ++ r) = some (s, r) := by
  have hbody : readQuotedBody (escape s ++ '\x27' :: r) = some (s, r) := by
    induction s with
    | nil =>
      cases r with
      | nil => rfl
      | cons c r => simp [escape, readQuotedBody, hr c rfl]
    | cons c s ih =>
      have hcons : escape (c :: s) ++ '\x27' :: r = escapeChar c ++ (escape s ++ '\x27' :: r) := by
        simp [escape]
      rw [hcons, readQuotedBody_escapeChar, ih]
      rfl
  have hquote : quote s ++ r = '\x27' :: (escape s ++ '\x27' :: r) := by simp [quote]
  rw [hquote]
  exact hbody

/-- What stands in quotes takes more than its own length, with the closing quote. -/
theorem length_add_lt_of_readQuotedBody {s body r : List Char}
    (h : readQuotedBody s = some (body, r)) : body.length + r.length < s.length := by
  have hlonger {s body r : List Char} {c : Char}
      (ih : ∀ {b t}, readQuotedBody s = some (b, t) → b.length + t.length < s.length)
      (h : (readQuotedBody s).map (fun p => (c :: p.1, p.2)) = some (body, r)) :
      body.length + r.length < s.length + 1 := by
    rcases Option.map_eq_some_iff.1 h with ⟨⟨b, t⟩, hb, hpair⟩
    cases hpair
    have hlt : b.length + t.length < s.length := ih hb
    show b.length + 1 + t.length < s.length + 1
    omega
  fun_induction readQuotedBody s generalizing body r with
  | case1 => cases h
  | case2 s ih => exact Nat.lt_succ_of_lt (hlonger ih h)
  | case3 s =>
    cases h
    simp
  | case4 c s ih => exact Nat.lt_succ_of_lt (hlonger ih h)
  | case5 => cases h
  | case6 c s _ _ _ _ ih => exact hlonger ih h

theorem skipBlanks_cons {c : Char} (hc : isBlank c = false) (r : List Char) :
    skipBlanks (c :: r) = c :: r := by
  rw [skipBlanks, List.dropWhile_cons_of_neg (by simp [hc])]

/-- A text of blanks, perhaps of none. -/
def IsBlanks (s : List Char) : Prop :=
  ∀ c ∈ s, isBlank c = true

-- Left to itself, inference may go through all characters instead of those of the text.
instance : DecidablePred IsBlanks :=
  List.decidableBAll _

theorem isBlanks_nil : IsBlanks [] := by
  intro c hc
  cases hc

/-- Blanks in front of a text are skipped with those of the text. -/
theorem skipBlanks_append {gap : List Char} (hgap : IsBlanks gap)
    (r : List Char) : skipBlanks (gap ++ r) = skipBlanks r :=
  List.dropWhile_append_of_pos hgap

/-- A text of which no blanks are skipped does not start with one. -/
theorem isBlank_of_skipBlanks_eq {s : List Char} (h : skipBlanks s = s) :
    ∀ c ∈ s.head?, isBlank c = false := by
  cases s with
  | nil => simp
  | cons c r =>
    intro d hd
    cases hd
    cases hc : isBlank c with
    | false => rfl
    | true =>
      have hle := length_skipBlanks_le r
      rw [skipBlanks, List.dropWhile_cons_of_pos hc] at h
      rw [skipBlanks, h, List.length_cons] at hle
      omega

end Text

/-- Texts with a separator between them: the first, and the others after one each. -/
theorem intercalate_cons (separator t : List Char) (ts : List (List Char)) :
    separator.intercalate (t :: ts) = t ++ ts.flatMap fun u => separator ++ u := by
  induction ts generalizing t with
  | nil => simp [List.intercalate]
  | cons u us ih => rw [List.intercalate_cons_cons, ih, List.flatMap_cons, List.append_assoc,
      List.append_assoc]

/-- No text is longer than all of them with separators between them. -/
theorem length_le_intercalate (separator : List Char) {t : List Char} {ts : List (List Char)}
    (h : t ∈ ts) : t.length ≤ (separator.intercalate ts).length := by
  cases ts with
  | nil => cases h
  | cons u us =>
    rw [intercalate_cons, List.length_append]
    rcases List.mem_cons.1 h with rfl | h
    · omega
    · have hsub := List.sublist_flatten_of_mem
        (List.mem_map.2 ⟨t, h, rfl⟩ : separator ++ t ∈ us.map fun u => separator ++ u)
      have hle := hsub.length_le
      rw [← List.flatMap_def, List.length_append] at hle
      omega

/-- Texts with commas between them: the first, and the others after a comma and a
    blank each. -/
theorem commaSeparated_cons (t : List Char) (ts : List (List Char)) :
    commaSeparated (t :: ts) = t ++ ts.flatMap fun u => ',' :: ' ' :: u :=
  intercalate_cons [',', ' '] t ts

/-- No text is longer than all of them with commas between them. -/
theorem length_le_commaSeparated {t : List Char} {ts : List (List Char)} (h : t ∈ ts) :
    t.length ≤ (commaSeparated ts).length :=
  length_le_intercalate [',', ' '] h

namespace Text

namespace Reader

/-- A run of characters of a class is taken up to where another class begins. -/
theorem while1_append {p : Char → Bool} {w r : List Char} (hne : w ≠ [])
    (hw : ∀ c ∈ w, p c = true) (hr : ∀ c ∈ r.head?, p c = false) :
    while1 p (w ++ r) = some (w, r) := by
  have hrun := span_append hw hr
  cases w with
  | nil => exact absurd rfl hne
  | cons c w => simp only [while1, hrun.1, hrun.2]

/-- Nothing is taken off a text that starts with another class of characters. -/
theorem while1_eq_none {p : Char → Bool} {s : List Char} (hs : ∀ c ∈ s.head?, p c = false) :
    while1 p s = none := by
  cases s with
  | nil => rfl
  | cons c s => simp [while1, hs c rfl]

/-- A run that was taken stands before what is left. -/
theorem eq_append_of_while1 {p : Char → Bool} {s w r : List Char}
    (h : while1 p s = some (w, r)) : s = w ++ r := by
  unfold while1 at h
  split at h
  · cases h
  · next c run hrun =>
    cases h
    rw [← hrun, List.takeWhile_append_dropWhile]

/-- A run that was taken is not empty, and all of it is of the class. -/
theorem of_while1 {p : Char → Bool} {s w r : List Char} (h : while1 p s = some (w, r)) :
    w ≠ [] ∧ ∀ c ∈ w, p c = true := by
  unfold while1 at h
  split at h
  · cases h
  · next c run hrun =>
    cases h
    refine ⟨List.cons_ne_nil c run, ?_⟩
    intro d hd
    rw [← hrun] at hd
    exact List.all_eq_true.1 List.all_takeWhile d hd

section Separated

variable {α β : Type} {items : List α} {f : α → List Char} {g : α → β}
  {separator : Reader Unit} {item : Reader β} {closing : Char}

/-- Each item takes at least a comma. -/
theorem length_le_flatMap (items : List α) (f : α → List Char) :
    items.length ≤ (items.flatMap fun p => ',' :: f p).length := by
  induction items with
  | nil => exact Nat.le_refl _
  | cons p items ih =>
    simp only [List.flatMap_cons, List.length_append, List.length_cons]
    omega

/-- After an item stands a comma or the closing mark. -/
theorem exists_flatMap_eq_cons (items : List α) (f : α → List Char) (closing : Char)
    (rest : List Char) :
    ∃ d r, items.flatMap (fun p => ',' :: f p) ++ closing :: rest = d :: r ∧
      (d = ',' ∨ d = closing) := by
  cases items with
  | nil => exact ⟨closing, rest, rfl, Or.inr rfl⟩
  | cons q items => exact ⟨',', _, rfl, Or.inl rfl⟩

/-- Further items are read, each after a comma, if every one of them is where a comma or
    the closing mark follows. -/
theorem furtherItems_flatMap (hclosing : ∀ r, separator (closing :: r) = none)
    (hitems : ∀ p ∈ items, ∀ d r, (d = ',' ∨ d = closing) →
      ∃ r', separator (',' :: (f p ++ d :: r)) = some ((), r') ∧ item r' = some (g p, d :: r))
    (rest : List Char) {n : Nat} (hn : items.length ≤ n) :
    furtherItems separator item n (items.flatMap (fun p => ',' :: f p) ++ closing :: rest) =
      (items.map g, closing :: rest) := by
  -- Induction on the items that are still to be read. There is a round for each of them,
  -- and the closing mark ends the last one.
  induction items generalizing n with
  | nil =>
    cases n with
    | zero => rfl
    | succ n =>
      simp only [List.map_nil, List.flatMap_nil, List.nil_append, furtherItems, hclosing]
  | cons p items ih =>
    cases n with
    | zero => simp at hn
    | succ n =>
      have hrest := ih (fun q hq => hitems q (List.mem_cons_of_mem p hq))
        (Nat.le_of_succ_le_succ (by simpa using hn))
      rcases exists_flatMap_eq_cons items f closing rest with ⟨d, r, hdr, hd⟩
      rcases hitems p List.mem_cons_self d r hd with ⟨r', hseparator, hitem⟩
      rw [hdr] at hrest
      simp only [List.map_cons, List.flatMap_cons, List.cons_append, List.append_assoc, hdr,
        furtherItems, hseparator, hitem, hrest]

/-- Items are read up to the closing mark, the first one as it stands and the others each
    after a comma. -/
theorem separated1_flatMap {first : List Char} {x : β}
    (hclosing : ∀ r, separator (closing :: r) = none)
    (hfirst : ∀ d r, (d = ',' ∨ d = closing) → item (first ++ d :: r) = some (x, d :: r))
    (hitems : ∀ p ∈ items, ∀ d r, (d = ',' ∨ d = closing) →
      ∃ r', separator (',' :: (f p ++ d :: r)) = some ((), r') ∧ item r' = some (g p, d :: r))
    (rest : List Char) :
    separated1 separator item
        (first ++ (items.flatMap (fun p => ',' :: f p) ++ closing :: rest)) =
      some (x :: items.map g, closing :: rest) := by
  have hlength : items.length ≤
      (items.flatMap (fun p => ',' :: f p) ++ closing :: rest).length := by
    have hle := length_le_flatMap items f
    rw [List.length_append]
    omega
  have hfurther := furtherItems_flatMap hclosing hitems rest hlength
  rcases exists_flatMap_eq_cons items f closing rest with ⟨d, r, hdr, hd⟩
  rw [hdr] at hfurther
  rw [hdr, separated1, hfirst d r hd]
  simp only [Option.bind_eq_bind, Option.bind_some, Option.pure_def, hfurther]

/-- Where no item stands before the closing mark, there are none. -/
theorem enclosed_separated_nil {gap : List Char} (hgap : IsBlanks gap)
    (hblank : isBlank closing = false) (hnone : ∀ r, item (closing :: r) = none)
    (opening : Char) (rest : List Char) :
    enclosed opening closing (separated separator item) (opening :: (gap ++ closing :: rest)) =
      some ([], rest) := by
  rw [enclosed, char_cons]
  simp only [Option.bind_eq_bind, Option.bind_some, spaced, skipBlanks_append hgap,
    skipBlanks_cons hblank, separated, separated1, hnone, Option.bind_none, Option.pure_def,
    char_cons]

/-- Items are read between brackets, the first one as it stands and the others each after
    a comma, if they may have blanks in front. -/
theorem enclosed_separated_flatMap {first gap : List Char} {x : β}
    (hgap : IsBlanks gap) (hblank : isBlank closing = false)
    (hskip : ∀ s, item (skipBlanks s) = item s)
    (hclosing : ∀ r, separator (closing :: r) = none)
    (hfirst : ∀ d r, (d = ',' ∨ d = closing) → item (first ++ d :: r) = some (x, d :: r))
    (hitems : ∀ p ∈ items, ∀ d r, (d = ',' ∨ d = closing) →
      ∃ r', separator (',' :: (f p ++ d :: r)) = some ((), r') ∧ item r' = some (g p, d :: r))
    (opening : Char) (rest : List Char) :
    enclosed opening closing (separated separator item) (opening :: (gap ++
        (first ++ (items.flatMap (fun p => ',' :: f p) ++ closing :: rest)))) =
      some (x :: items.map g, rest) := by
  have hread := separated1_flatMap hclosing hfirst hitems rest
  generalize first ++ (items.flatMap (fun p => ',' :: f p) ++ closing :: rest) = s at hread ⊢
  -- The blanks before the first item are its own.
  have hseparated : separated1 separator item (skipBlanks s) = separated1 separator item s := by
    simp only [separated1, hskip]
  rw [enclosed, char_cons]
  simp only [Option.bind_eq_bind, Option.bind_some, spaced, skipBlanks_append hgap, separated,
    hseparated, hread, skipBlanks_cons hblank, Option.pure_def, char_cons]

/-- Texts with commas between them are read one by one up to the closing mark, if there
    is one at least. -/
theorem separated1_commaSeparated (hne : items ≠ [])
    (hclosing : ∀ r, separator (closing :: r) = none)
    (hitems : ∀ p ∈ items, ∀ d r, (d = ',' ∨ d = closing) →
      item (f p ++ d :: r) = some (g p, d :: r) ∧
      ∃ r', separator (',' :: ' ' :: (f p ++ d :: r)) = some ((), r') ∧
        item r' = some (g p, d :: r))
    (rest : List Char) :
    separated1 separator item (commaSeparated (items.map f) ++ closing :: rest) =
      some (items.map g, closing :: rest) := by
  cases items with
  | nil => exact absurd rfl hne
  | cons p items =>
    rw [List.map_cons, commaSeparated_cons, List.append_assoc, List.flatMap_map]
    exact separated1_flatMap (f := fun q => ' ' :: f q) hclosing
      (fun d r hd => (hitems p List.mem_cons_self d r hd).1)
      (fun q hq d r hd => (hitems q (List.mem_cons_of_mem p hq) d r hd).2) rest

/-- All that further items hold was read. -/
theorem of_furtherItems {n : Nat} {s : List Char} {x : β}
    (h : x ∈ (furtherItems separator item n s).1) : ∃ s' r, item s' = some (x, r) := by
  induction n generalizing s with
  | zero => simp [furtherItems] at h
  | succ n ih =>
    unfold furtherItems at h
    split at h
    · cases h
    split at h
    · cases h
    · next y r hitem =>
      rcases List.mem_cons.1 h with rfl | h
      · exact ⟨_, r, hitem⟩
      · exact ih h

/-- A list that was read is not empty, and all that it holds was read. -/
theorem of_separated1 {s r : List Char} {xs : List β}
    (h : separated1 separator item s = some (xs, r)) :
    xs ≠ [] ∧ ∀ x ∈ xs, ∃ s' r', item s' = some (x, r') := by
  unfold separated1 at h
  rcases Option.bind_eq_some_iff.1 h with ⟨⟨x, r'⟩, hfirst, h⟩
  cases h
  refine ⟨List.cons_ne_nil _ _, ?_⟩
  intro y hy
  rcases List.mem_cons.1 hy with rfl | hy
  · exact ⟨s, r', hfirst⟩
  · exact of_furtherItems hy

end Separated

end Reader

end Text

end ColumnStore
