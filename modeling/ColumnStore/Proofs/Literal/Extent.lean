import ColumnStore.Proofs.ColumnType.Absence
import ColumnStore.Proofs.Literal.Spelling
import Mathlib.Algebra.Order.BigOperators.Group.List
import Mathlib.Algebra.Order.Ring.Nat

/-!
# How Much a Text Can Say

A literal never says more than the text that it is read from. Counted are the characters of the
scalars in it and one more for each of them. The marks of the notation make up for that one:
a scalar in quotes has two of them, an escape is longer than what it stands for, and an item
between brackets has a comma or a bracket after it.

Only a bare word has no mark. It may stand for itself, and then the scalar is as long as the
text. So whatever is not such a word gets shorter when it is read, and that holds of all the
scalars in it together.

## Main definitions

* `Literal.scalars`: The scalars in a literal.
* `Literal.extent`: Their characters, and one more for each of them.
* `Literal.IsBareWord`: A text that is read as itself.

## Theorems

* `Literal.extent_le_of_readerTo`: What is read at the start of a text.
* `Literal.read_of_isBareWord`: A bare word is itself.
* `Literal.extent_le_of_read`: What is read from a text that is no bare word.
* `Literal.length_lt_of_read`: Scalars are shorter than their text unless that is a bare word.
-/

namespace ColumnStore

namespace Text.Reader

variable {α β : Type} {size : α → Nat} {sizeOther : β → Nat} {item : Reader α}
  {other : Reader β} {s r : List Char}

theorem length_of_char {c : Char} (h : char c s = some ((), r)) : s.length = r.length + 1 := by
  rw [eq_append_of_exactly h, List.length_append, List.length_singleton, Nat.add_comm]

theorem length_le_of_ignoringCase {name : List Char} (h : ignoringCase name s = some ((), r)) :
    r.length ≤ s.length := by
  induction name generalizing s with
  | nil =>
    cases h
    exact Nat.le_refl _
  | cons c name ih =>
    cases s with
    | nil => cases h
    | cons d s =>
      rw [ignoringCase] at h
      by_cases hd : d.toLower = c
      · rw [if_pos hd] at h
        exact Nat.le_succ_of_le (ih h)
      · rw [if_neg hd] at h
        cases h

/-- What is taken off a text is by one larger at most than what is missing afterwards. -/
def Spans (size : α → Nat) (item : Reader α) : Prop :=
  ∀ s x r, item s = some (x, r) → size x + r.length ≤ s.length + 1

theorem Spans.spaced (h : Spans size item) : Spans size (spaced item) := by
  intro s x r hs
  rcases Option.bind_eq_some_iff.1 hs with ⟨⟨y, r'⟩, hitem, hpair⟩
  cases hpair
  have hle := h _ _ _ hitem
  have hbefore := length_skipBlanks_le s
  have hafter := length_skipBlanks_le r'
  omega

/-- Each further item has a comma before it that makes up for the one. -/
theorem Spans.furtherItems (h : Spans size item) (n : Nat) (s : List Char) :
    ((Reader.furtherItems (char ',') item n s).1.map size).sum +
      (Reader.furtherItems (char ',') item n s).2.length ≤ s.length := by
  induction n generalizing s with
  | zero => simp [Reader.furtherItems]
  | succ n ih =>
    unfold Reader.furtherItems
    split
    · simp
    · next r₁ hcomma =>
      split
      · simp
      · next x r₂ hitem =>
        have hle := h _ _ _ hitem
        have hrest := ih r₂
        dsimp only
        rw [length_of_char hcomma, List.map_cons, List.sum_cons]
        omega

theorem Spans.separated (h : Spans size item) :
    Spans (fun xs => (xs.map size).sum) (separated (char ',') item) := by
  intro s xs r hs
  unfold Reader.separated at hs
  split at hs
  · next hfound =>
    cases hs
    rcases Option.bind_eq_some_iff.1 hfound with ⟨⟨x, r₁⟩, hitem, hfound⟩
    cases hfound
    have hle := h _ _ _ hitem
    have hrest := h.furtherItems r₁.length r₁
    dsimp only
    rw [List.map_cons, List.sum_cons]
    omega
  · cases hs
    simp

/-- Brackets make up for the one that is missing, and for one more. -/
theorem Spans.enclosed (h : Spans size item) {opening closing : Char} {x : α}
    (hs : Reader.enclosed opening closing item s = some (x, r)) :
    size x + r.length < s.length := by
  rcases Option.bind_eq_some_iff.1 hs with ⟨⟨⟨⟩, r₁⟩, hopening, hs⟩
  rcases Option.bind_eq_some_iff.1 hs with ⟨⟨y, r₂⟩, hitem, hs⟩
  rcases Option.bind_eq_some_iff.1 hs with ⟨⟨⟨⟩, r₃⟩, hclosing, hpair⟩
  cases hpair
  have hle := h.spaced _ _ _ hitem
  rw [length_of_char hclosing] at hle
  rw [length_of_char hopening]
  omega

theorem Spans.pairOf (h : Spans size item) (hother : Spans sizeOther other) {c : Char} :
    Spans (fun p => size p.1 + sizeOther p.2) (pairOf item (char c) other) := by
  intro s p r hs
  rcases Option.bind_eq_some_iff.1 hs with ⟨⟨x, r₁⟩, hitem, hs⟩
  rcases Option.bind_eq_some_iff.1 hs with ⟨⟨⟨⟩, r₂⟩, hmark, hs⟩
  rcases Option.bind_eq_some_iff.1 hs with ⟨⟨y, r₃⟩, hitem', hpair⟩
  cases hpair
  have hfirst := h _ _ _ hitem
  have hsecond := hother _ _ _ hitem'
  rw [length_of_char hmark] at hfirst
  show size x + sizeOther y + r.length ≤ s.length + 1
  omega

end Text.Reader

namespace Literal

open Text (Reader)

variable {s r : List Char} {l : Literal}

mutual

/-- The scalars in a literal. -/
def scalars : Literal → List String
  | null => []
  | scalar t => [t]
  | list items => itemsScalars items
  | map entries => entriesScalars entries

/-- The scalars in the items of a list. -/
def itemsScalars : List Literal → List String
  | [] => []
  | l :: ls => scalars l ++ itemsScalars ls

/-- The scalars in the keys and values of a map. -/
def entriesScalars : List (Literal × Literal) → List String
  | [] => []
  | (k, l) :: es => scalars k ++ (scalars l ++ entriesScalars es)

end

/-- The characters of the scalars in a literal, and one more for each of them. -/
def extent (l : Literal) : Nat :=
  (l.scalars.map fun t => t.toList.length + 1).sum

theorem extent_scalar (t : String) : (scalar t).extent = t.toList.length + 1 :=
  Nat.add_zero _

theorem extent_list (items : List Literal) : (list items).extent = (items.map extent).sum := by
  show ((itemsScalars items).map _).sum = _
  induction items with
  | nil => rfl
  | cons l ls ih =>
    rw [itemsScalars, List.map_append, List.sum_append, ih, List.map_cons, List.sum_cons]
    rfl

theorem extent_map (entries : List (Literal × Literal)) :
    (map entries).extent = (entries.map fun e => e.1.extent + e.2.extent).sum := by
  show ((entriesScalars entries).map _).sum = _
  induction entries with
  | nil => rfl
  | cons e es ih =>
    rw [entriesScalars, List.map_append, List.sum_append, List.map_append, List.sum_append, ih,
      List.map_cons, List.sum_cons, ← Nat.add_assoc]
    rfl

/-- No scalar in a literal is longer than all of them. -/
theorem length_lt_extent {t : String} (h : t ∈ l.scalars) : t.toList.length < l.extent :=
  List.le_sum_of_mem
    (List.mem_map_of_mem h : t.toList.length + 1 ∈ l.scalars.map fun t => t.toList.length + 1)

/-- Keys and values in turn hold what the entries hold. -/
theorem sum_extent_of_pairUp? {items : List Literal} {entries : List (Literal × Literal)}
    (h : pairUp? items = some entries) :
    (entries.map fun e => e.1.extent + e.2.extent).sum = (items.map extent).sum := by
  fun_induction pairUp? items generalizing entries with
  | case1 =>
    cases h
    rfl
  | case2 => cases h
  | case3 x y items ih =>
    rcases Option.map_eq_some_iff.1 h with ⟨rest, hrest, rfl⟩
    simp only [List.map_cons, List.sum_cons, ih hrest, Nat.add_assoc]

theorem length_le_of_nullReader (h : nullReader s = some (l, r)) : r.length ≤ s.length := by
  rcases (Option.orElse_eq_some _ _ _).1 h with hword | ⟨-, hmark⟩
  · have hrest {u : List Char} (hu : Reader.exactly "NULL".toList s = some ((), u)) :
        u.length ≤ s.length := by
      rw [Reader.eq_append_of_exactly hu, List.length_append]
      omega
    split at hword
    · next c u hu =>
      cases hbare : isBare c <;> rw [hbare] at hword <;> cases hword
      exact hrest hu
    · next hu =>
      cases hword
      exact hrest hu
    · cases hword
  · rcases Option.map_eq_some_iff.1 hmark with ⟨⟨⟨⟩, u⟩, hu, hpair⟩
    cases hpair
    rw [Reader.eq_append_of_exactly hu, List.length_append]
    omega

theorem extent_lt_of_quotedReader (h : quotedReader s = some (l, r)) :
    l.extent + r.length < s.length := by
  rcases Option.map_eq_some_iff.1 h with ⟨⟨body, u⟩, hbody, hpair⟩
  cases hpair
  unfold Text.readQuoted at hbody
  split at hbody
  · have hlt := Text.length_add_lt_of_readQuotedBody hbody
    rw [extent_scalar, String.toList_ofList, List.length_cons]
    omega
  · cases hbody

theorem extent_of_bareReader (h : bareReader s = some (l, r)) :
    l.extent + r.length = s.length + 1 := by
  rcases Option.map_eq_some_iff.1 h with ⟨⟨word, u⟩, hword, hpair⟩
  cases hpair
  rw [extent_scalar, String.toList_ofList, Reader.eq_append_of_while1 hword, List.length_append]
  omega

/-- A literal at the start of a text takes as much of the text as it says, unless it is a bare
    word there. -/
theorem extent_le_of_readerTo {depth : Nat} (h : readerTo depth s = some (l, r)) :
    l.extent + r.length ≤ s.length ∨ nullReader s = none ∧ bareReader s = some (l, r) := by
  induction depth generalizing s l r with
  | zero => cases h
  | succ depth ih =>
    have hspans : Reader.Spans extent (readerTo depth) := by
      intro s l r h
      rcases ih h with hle | ⟨-, hbare⟩
      · exact Nat.le_succ_of_le hle
      · exact Nat.le_of_eq (extent_of_bareReader hbare)
    have hitems {opening closing : Char} {items : List Literal} {s r : List Char}
        (h : itemsReader opening closing (readerTo depth) s = some (items, r)) :
        (items.map extent).sum + r.length < s.length :=
      hspans.spaced.separated.enclosed h
    rw [readerTo] at h
    rcases (Option.orElse_eq_some _ _ _).1 h with hnull | ⟨hnull, h⟩
    · rw [eq_null_of_nullReader hnull]
      exact Or.inl (Nat.le_trans (Nat.le_of_eq (Nat.zero_add _)) (length_le_of_nullReader hnull))
    rcases (Option.orElse_eq_some _ _ _).1 h with hquoted | ⟨-, h⟩
    · exact Or.inl (Nat.le_of_lt (extent_lt_of_quotedReader hquoted))
    rcases (Option.orElse_eq_some _ _ _).1 h with hlist | ⟨-, h⟩
    · rcases Option.map_eq_some_iff.1 hlist with ⟨⟨items, u⟩, hread, hpair⟩
      cases hpair
      rw [extent_list]
      exact Or.inl (Nat.le_of_lt (hitems hread))
    rcases (Option.orElse_eq_some _ _ _).1 h with hmap | ⟨-, h⟩
    · rcases Option.bind_eq_some_iff.1 hmap with ⟨⟨⟨⟩, u⟩, hname, hmap⟩
      rcases Option.bind_eq_some_iff.1 hmap with ⟨⟨items, v⟩, hread, hmap⟩
      rcases Option.bind_eq_some_iff.1 hmap with ⟨entries, hentries, hpair⟩
      cases hpair
      have hlt := hitems hread
      have hle := Reader.length_le_of_ignoringCase hname
      have hskip := Text.length_skipBlanks_le u
      rw [extent_map, sum_extent_of_pairUp? hentries]
      omega
    rcases (Option.orElse_eq_some _ _ _).1 h with htuple | ⟨-, h⟩
    · rcases Option.bind_eq_some_iff.1 htuple with ⟨⟨⟨⟩, u⟩, hname, htuple⟩
      rcases Option.bind_eq_some_iff.1 htuple with ⟨⟨items, v⟩, hread, hpair⟩
      cases hpair
      have hlt := hitems hread
      have hle := Reader.length_le_of_ignoringCase hname
      have hskip := Text.length_skipBlanks_le u
      rw [extent_list]
      omega
    rcases (Option.orElse_eq_some _ _ _).1 h with hlist | ⟨-, h⟩
    · rcases Option.map_eq_some_iff.1 hlist with ⟨⟨items, u⟩, hread, hpair⟩
      cases hpair
      rw [extent_list]
      exact Or.inl (Nat.le_of_lt (hitems hread))
    rcases (Option.orElse_eq_some _ _ _).1 h with hbraces | ⟨-, hbare⟩
    · rcases Option.map_eq_some_iff.1 hbraces with ⟨⟨entries, u⟩, hread, hpair⟩
      cases hpair
      rw [extent_map]
      exact Or.inl (Nat.le_of_lt
        ((hspans.spaced.pairOf hspans.spaced).separated.enclosed hread))
    · exact Or.inr ⟨hnull, hbare⟩

/-! ## Whole texts -/

/-- A text that is nothing but a bare word, and not one for the absence of content. -/
structure IsBareWord (w : List Char) : Prop where
  ne_nil : w ≠ []
  isBare : ∀ c ∈ w, isBare c = true
  ne_null : w ≠ "NULL".toList
  no_mark : ¬ ['\\', 'N'] <+: w

instance (w : List Char) : Decidable (IsBareWord w) :=
  -- Left to itself, inference may go through all characters instead of those of the word.
  haveI : Decidable (∀ c ∈ w, isBare c = true) := List.decidableBAll _ w
  decidable_of_iff
    (w ≠ [] ∧ (∀ c ∈ w, isBare c = true) ∧ w ≠ "NULL".toList ∧ ¬ ['\\', 'N'] <+: w)
    ⟨fun ⟨hne, hbare, hnull, hmark⟩ => ⟨hne, hbare, hnull, hmark⟩,
      fun ⟨hne, hbare, hnull, hmark⟩ => ⟨hne, hbare, hnull, hmark⟩⟩

/-- A bare word is itself. -/
theorem read_of_isBareWord {w : List Char} (h : IsBareWord w) :
    read w = .ok (scalar (String.ofList w)) := by
  have hread := readerTo_word h.ne_nil h.isBare h.ne_null h.no_mark
    (ends_blanks Text.isBlanks_nil) w.length
  have hskip : Text.skipBlanks w = w := by
    cases w with
    | nil => rfl
    | cons c w => exact Text.skipBlanks_cons (isBlank_of_isBare (h.isBare c List.mem_cons_self)) w
  rw [List.append_nil] at hread
  rw [read, Reader.spaced, hskip, reader, hread]
  rfl

/-- A text takes as much as the literal says that is read from it, unless it is a bare word. -/
theorem extent_le_of_read (h : read s = .ok l) :
    l.extent ≤ s.length ∨ IsBareWord s ∧ l = scalar (String.ofList s) := by
  have hread := h
  unfold read at hread
  split at hread
  · next x hspaced =>
    cases hread
    rcases Option.bind_eq_some_iff.1 hspaced with ⟨⟨x, r⟩, hread, hpair⟩
    obtain rfl : x = l := congrArg Prod.fst (Option.some.inj hpair)
    have hskip := Text.length_skipBlanks_le s
    rcases extent_le_of_readerTo hread with hle | ⟨hnull, hbare⟩
    · omega
    rcases Option.map_eq_some_iff.1 hbare with ⟨⟨w, u⟩, hword, hpair⟩
    cases hpair
    by_cases hlt : w.length < s.length
    · rw [extent_scalar, String.toList_ofList]
      exact Or.inl hlt
    · -- The word fills the text, so there is nothing before it and nothing after it.
      have hall : w = s := by simpa using eq_of_read_scalar h (by simpa using hlt)
      have happend := Reader.eq_append_of_while1 hword
      have hr : r = [] := by
        rw [happend, List.length_append] at hskip
        exact List.eq_nil_of_length_eq_zero (by omega)
      rw [happend, hr, List.append_nil] at hnull
      subst hall
      rcases Reader.of_while1 hword with ⟨hne, hclass⟩
      refine Or.inr ⟨⟨hne, hclass, ?_, ?_⟩, rfl⟩
      · rintro rfl
        cases hnull
      · rintro ⟨v, rfl⟩
        cases hnull
  · cases hread
  · cases hread

/-- Whatever is read from a text, the scalars in it are shorter, and a text that is read as
    a scalar of its own length is a bare word. -/
theorem length_lt_of_read (h : read s = .ok l) :
    (∀ t ∈ l.scalars, t.toList.length < s.length) ∨ IsBareWord s ∧ l = scalar (String.ofList s) :=
  (extent_le_of_read h).imp_left fun hle _ ht => Nat.lt_of_lt_of_le (length_lt_extent ht) hle

end Literal

end ColumnStore
