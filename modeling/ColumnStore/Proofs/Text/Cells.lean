import ColumnStore.Text.Cell
import Mathlib.Data.List.Basic

/-!
# Cells and Lines of Cells

A line of cells is read back from what is written for it. Three layers are undone, and
each must not disturb the next. An escaped text never is the mark for an absent cell,
since no escape is a backslash and an `N`. It holds no tab, so a line is cut where the
writer put a tab and nowhere else. And it holds neither a newline nor a carriage return,
so the line itself survives being cut out of a response.

## Theorems

* `splitOn_append`, `splitOn_intercalate`: Parts without the separator are cut apart.
* `unescape_escape`: A text is read back from its escaped form.
* `readCell_writeCell`: So is a cell, whether it holds a text or not.
* `readCells_writeCells`: And a line of cells.
-/

namespace ColumnStore

namespace Text

theorem splitOn_append {sep : Char} {s : List Char} (hs : ∀ c ∈ s, c ≠ sep) (r : List Char) :
    splitOn sep (s ++ sep :: r) = s :: splitOn sep r := by
  induction s with
  | nil => simp [splitOn]
  | cons c s ih =>
    have hc := hs c List.mem_cons_self
    rw [List.cons_append, splitOn, if_neg hc, ih fun d hd => hs d (List.mem_cons_of_mem c hd)]

theorem splitOn_of_forall_ne {sep : Char} {s : List Char} (hs : ∀ c ∈ s, c ≠ sep) :
    splitOn sep s = [s] := by
  induction s with
  | nil => rfl
  | cons c s ih =>
    have hc := hs c List.mem_cons_self
    rw [splitOn, if_neg hc, ih fun d hd => hs d (List.mem_cons_of_mem c hd)]

/-- Parts that were put together with a separator are cut apart again. There must be one
    part at least, since a text always has one. -/
theorem splitOn_intercalate {sep : Char} {parts : List (List Char)} (hne : parts ≠ [])
    (h : ∀ s ∈ parts, ∀ c ∈ s, c ≠ sep) : splitOn sep ([sep].intercalate parts) = parts := by
  induction parts with
  | nil => exact absurd rfl hne
  | cons s parts ih =>
    have hs := h s List.mem_cons_self
    cases parts with
    | nil => rw [List.intercalate_singleton, splitOn_of_forall_ne hs]
    | cons t parts =>
      have hrest := ih (List.cons_ne_nil t parts) fun u hu => h u (List.mem_cons_of_mem s hu)
      rw [List.intercalate_cons_cons, List.append_assoc, List.singleton_append,
        splitOn_append hs, hrest]

/-- A character is either written as it is, and then it has no meaning of its own in a
    line, or as a backslash and a character that stands for it. -/
theorem escapeChar_cases (c : Char) :
    (escapeChar c = [c] ∧ c ≠ '\\' ∧ c ≠ '\t' ∧ c ≠ '\n' ∧ c ≠ '\r') ∨
      ∃ d, escapeChar c = ['\\', d] ∧ unescapeChar d = c ∧
        d ≠ 'N' ∧ d ≠ '\t' ∧ d ≠ '\n' ∧ d ≠ '\r' := by
  unfold escapeChar
  split
  case h_9 hbackslash _ _ _ hreturn hnewline htab _ =>
    exact Or.inl ⟨rfl, hbackslash, htab, hnewline, hreturn⟩
  all_goals exact Or.inr ⟨_, rfl, by decide⟩

/-- A character that is no backslash stands for itself. -/
theorem unescape_cons {c : Char} (hc : c ≠ '\\') (r : List Char) :
    unescape (c :: r) = c :: unescape r := by
  rw [unescape.eq_def]
  split
  · next he => cases he
  · next he => exact absurd (List.cons.inj he).1 hc
  · next he => exact absurd (List.cons.inj he).1 hc
  · next he => rw [(List.cons.inj he).1, (List.cons.inj he).2]

/-- The escaped form of a character stands for the character. -/
theorem unescape_escapeChar (c : Char) (r : List Char) :
    unescape (escapeChar c ++ r) = c :: unescape r := by
  rcases escapeChar_cases c with ⟨hplain, hc, -⟩ | ⟨d, hescaped, hd, -⟩
  · rw [hplain, List.singleton_append, unescape_cons hc]
  · rw [hescaped, ← hd]
    rfl

/-- A text is read back from its escaped form. -/
theorem unescape_escape (s : List Char) : unescape (escape s) = s := by
  induction s with
  | nil => rfl
  | cons c s ih =>
    have hcons : escape (c :: s) = escapeChar c ++ escape s := List.flatMap_cons
    rw [hcons, unescape_escapeChar, ih]

/-- No escaped text is the mark for an absent cell. -/
theorem escape_ne_absent (s : List Char) : escape s ≠ ['\\', 'N'] := by
  intro h
  cases s with
  | nil => cases h
  | cons c s =>
    have hcons : escape (c :: s) = escapeChar c ++ escape s := List.flatMap_cons
    rw [hcons] at h
    -- The first character of the mark is a backslash and the second one an `N`.
    rcases escapeChar_cases c with ⟨hplain, hc, -⟩ | ⟨d, hescaped, -, hd, -⟩
    · rw [hplain, List.singleton_append, List.cons.injEq] at h
      exact hc h.1
    · rw [hescaped] at h
      simp only [List.cons_append, List.cons.injEq] at h
      exact hd h.2.1

/-- A cell is read back from what is written for it. -/
theorem readCell_writeCell (cell : Option (List Char)) : readCell (writeCell cell) = cell := by
  cases cell with
  | none => rfl
  | some s => rw [writeCell, readCell, if_neg (escape_ne_absent s), unescape_escape]

/-- What is written for a cell holds no character that ends a cell or a line. -/
theorem of_mem_writeCell {cell : Option (List Char)} {c : Char} (h : c ∈ writeCell cell) :
    c ≠ '\t' ∧ c ≠ '\n' ∧ c ≠ '\r' := by
  cases cell with
  | none =>
    simp only [writeCell, List.mem_cons, List.not_mem_nil, or_false] at h
    rcases h with rfl | rfl <;> decide
  | some s =>
    simp only [writeCell, escape, List.mem_flatMap] at h
    rcases h with ⟨b, -, hc⟩
    rcases escapeChar_cases b with ⟨hplain, -, hb⟩ | ⟨d, hescaped, -, -, hd⟩
    · rw [hplain, List.mem_singleton] at hc
      rw [hc]
      exact hb
    · rw [hescaped, List.mem_cons, List.mem_singleton] at hc
      rcases hc with rfl | rfl
      · decide
      · exact hd

/-- Cells are read back from the line that is written for them. -/
theorem readCells_writeCells {cells : List (Option (List Char))} (h : cells ≠ []) :
    readCells (writeCells cells) = cells := by
  have hparts : ∀ s ∈ cells.map writeCell, ∀ c ∈ s, c ≠ '\t' := by
    intro s hs c hc
    rcases List.mem_map.1 hs with ⟨cell, -, rfl⟩
    exact (of_mem_writeCell hc).1
  have hread : ∀ cell ∈ cells, (readCell ∘ writeCell) cell = cell :=
    fun cell _ => readCell_writeCell cell
  rw [readCells, writeCells, splitOn_intercalate (by simpa using h) hparts, List.map_map,
    List.map_congr_left hread, List.map_id']

/-- A character of some parts put together is one of a part or of the separator. -/
theorem of_mem_intercalate {sep : Char} {parts : List (List Char)} {c : Char}
    (h : c ∈ [sep].intercalate parts) : c = sep ∨ ∃ s ∈ parts, c ∈ s := by
  induction parts with
  | nil => cases h
  | cons s parts ih =>
    cases parts with
    | nil =>
      rw [List.intercalate_singleton] at h
      exact Or.inr ⟨s, List.mem_cons_self, h⟩
    | cons t parts =>
      rw [List.intercalate_cons_cons, List.mem_append, List.mem_append, List.mem_singleton] at h
      rcases h with (h | h) | h
      · exact Or.inr ⟨s, List.mem_cons_self, h⟩
      · exact Or.inl h
      · rcases ih h with h | ⟨u, hu, hc⟩
        · exact Or.inl h
        · exact Or.inr ⟨u, List.mem_cons_of_mem s hu, hc⟩

/-- The line of some cells holds no character that ends a line. -/
theorem of_mem_writeCells {cells : List (Option (List Char))} {c : Char}
    (h : c ∈ writeCells cells) : c ≠ '\n' ∧ c ≠ '\r' := by
  rcases of_mem_intercalate h with rfl | ⟨s, hs, hc⟩
  · decide
  · rcases List.mem_map.1 hs with ⟨cell, -, rfl⟩
    exact (of_mem_writeCell hc).2

end Text

end ColumnStore
