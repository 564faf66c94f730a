import ColumnStore.Wire.Body

/-!
# Lines of Bodies

However a response is cut into chunks, a reader finds the same lines in it. A
body is described by one thing only, the bytes that are still to come, whether
they wait in a buffer, in chunks or in front of a reader that has them all. Its
next line is the first of their lines, and what is left after it holds the
others.

A chunk may end inside a line. What has arrived of the line then stays in the
buffer, and that is why the lemmas about a buffer and its chunks speak of both
put together: adding a chunk to the buffer does not change that.

## Main definitions

* `Body.rest`: The bytes that are still to come.
* `Body.Unbroken`: The body ends and does not break off.

## Theorems

* `Wire.lines_of_ne_nil`: The first line and the lines of what follows it.
* `Wire.ends_of_mem_lines`: A newline stands at the end of a line only.
* `Wire.getLast?_of_mem_dropLast_lines`: Every line but the last has one.
* `LineBuffer.pop?_of_mem`: A buffer gives away its first line.
* `Body.refill_of_mem`: A line is found across chunks.
* `Body.refill_of_not_mem`: Without a newline all the bytes are collected.
* `Body.nextLine_of_rest_nil`, `Body.nextLine_of_rest_ne_nil`: The next line.
-/

namespace ColumnStore

namespace Wire

/-- Bytes without a newline belong to the line that follows them. -/
theorem cutLine_append_of_not_mem {bs : Bytes} (h : newline ∉ bs) (rest : Bytes) :
    cutLine (bs ++ rest) = (bs ++ (cutLine rest).1, (cutLine rest).2) := by
  induction bs with
  | nil => rfl
  | cons b bs ih =>
    rw [List.mem_cons, not_or] at h
    rw [List.cons_append, cutLine, if_neg (Ne.symm h.1), ih h.2]
    rfl

/-- Bytes without a newline are one line that lacks its end. -/
theorem cutLine_of_not_mem {bs : Bytes} (h : newline ∉ bs) : cutLine bs = (bs, []) := by
  have hcut := cutLine_append_of_not_mem h []
  rwa [List.append_nil, cutLine, List.append_nil] at hcut

/-- The first line of some bytes has a byte, and a newline at its end only. Unless
    it ends in a newline nothing follows it. -/
theorem cutLine_ends {bs : Bytes} (h : bs ≠ []) :
    (cutLine bs).1 ≠ [] ∧ newline ∉ (cutLine bs).1.dropLast ∧
      ((cutLine bs).1.getLast? = some newline ∨ (cutLine bs).2 = []) := by
  induction bs with
  | nil => exact absurd rfl h
  | cons b bs ih =>
    by_cases hb : b = newline
    · simp [cutLine, hb]
    · simp only [cutLine, hb, if_false]
      cases bs with
      | nil => simp [cutLine]
      | cons c cs =>
        -- The byte is no newline, so that it stands before the rest of the line.
        rcases ih (by simp) with ⟨hne, hno, hend⟩
        refine ⟨by simp, ?_, ?_⟩
        · rw [List.dropLast_cons_of_ne_nil hne, List.mem_cons, not_or]
          exact ⟨fun e => hb e.symm, hno⟩
        · rwa [List.getLast?_cons_of_ne_nil hne]

@[simp]
theorem lines_nil : lines [] = [] := by
  unfold lines
  rfl

/-- The first line and the lines of what follows it. -/
theorem lines_of_ne_nil {bs : Bytes} (h : bs ≠ []) :
    lines bs = (cutLine bs).1 :: lines (cutLine bs).2 := by
  cases bs with
  | nil => exact absurd rfl h
  | cons b bs => rw [lines]

/-- A line has a byte, and a newline at its end only. -/
theorem ends_of_mem_lines {bs line : Bytes} (h : line ∈ lines bs) :
    line ≠ [] ∧ newline ∉ line.dropLast := by
  -- Each line is the first one of what is left where it starts.
  by_cases hbs : bs = []
  · simp [hbs] at h
  · rw [lines_of_ne_nil hbs, List.mem_cons] at h
    rcases h with h | h
    · rw [h]
      exact ⟨(cutLine_ends hbs).1, (cutLine_ends hbs).2.1⟩
    · exact ends_of_mem_lines h
termination_by bs.length
decreasing_by exact length_cutLine_lt hbs

/-- Every line but the last ends in a newline. -/
theorem getLast?_of_mem_dropLast_lines {bs line : Bytes} (h : line ∈ (lines bs).dropLast) :
    line.getLast? = some newline := by
  by_cases hbs : bs = []
  · simp [hbs] at h
  · rcases (cutLine_ends hbs).2.2 with hend | hend
    · -- The first line is the last one too if nothing follows it.
      by_cases hrest : lines (cutLine bs).2 = []
      · simp [lines_of_ne_nil hbs, hrest] at h
      · rw [lines_of_ne_nil hbs, List.dropLast_cons_of_ne_nil hrest, List.mem_cons] at h
        rcases h with h | h
        · rw [h, hend]
        · exact getLast?_of_mem_dropLast_lines h
    · simp [lines_of_ne_nil hbs, hend] at h
termination_by bs.length
decreasing_by exact length_cutLine_lt hbs

namespace LineBuffer

@[simp]
theorem unread_extend (b : LineBuffer) (chunk : Bytes) :
    (b.extend chunk).unread = b.unread ++ chunk := by
  simp [extend, unread]

/-- A buffer that holds a whole line gives it away and keeps what follows it. -/
theorem pop?_of_mem {b : LineBuffer} (h : newline ∈ b.unread) :
    ∃ after, b.pop? = some ((cutLine b.unread).1, after) ∧
      after.unread = (cutLine b.unread).2 := by
  refine ⟨{ b with start := b.start + (cutLine b.unread).1.length }, by simp [pop?, h], ?_⟩
  have hcut := cutLine_append b.unread
  -- Reading on after the line drops its bytes from those that were not read.
  calc b.pending.drop (b.start + (cutLine b.unread).1.length)
      = b.unread.drop (cutLine b.unread).1.length := by rw [unread, List.drop_drop]
    _ = ((cutLine b.unread).1 ++ (cutLine b.unread).2).drop (cutLine b.unread).1.length := by
        rw [hcut]
    _ = (cutLine b.unread).2 := by rw [List.drop_left]

theorem pop?_of_not_mem {b : LineBuffer} (h : newline ∉ b.unread) : b.pop? = none := by
  simp [pop?, h]

end LineBuffer

end Wire

namespace Body

open Wire

/-- The bytes that are still to come. -/
def rest : Body → Bytes
  | whole rest => rest
  | arriving buffer chunks _ => buffer.unread ++ chunks.flatten

/-- A body that ends and does not break off. -/
def Unbroken : Body → Prop
  | whole _ => True
  | arriving _ _ broken => broken = none

/-- A response that arrives in chunks does not break off. -/
theorem unbroken_ofChunks (mode : Mode) (chunks : List Bytes) :
    (ofChunks mode chunks).Unbroken := by
  cases mode with
  | blocking => trivial
  | streaming => rfl

/-- The bytes of a stream are those of its chunks, whatever comes after them. -/
theorem rest_stream (chunks : List Bytes) (broken : Option Failure) :
    (stream [] chunks broken).rest = chunks.flatten := by
  rw [stream, rest, LineBuffer.unread, List.drop_nil, List.nil_append]

/-- The bytes of a response are those of its chunks. -/
theorem rest_ofChunks (mode : Mode) (chunks : List Bytes) :
    (ofChunks mode chunks).rest = chunks.flatten := by
  cases mode with
  | blocking => rfl
  | streaming => exact rest_stream chunks none

/-- A chunk that moves into the buffer leaves the bytes of both as they are. -/
theorem unread_extend_append (buffer : LineBuffer) (c : Bytes) (cs : List Bytes) :
    (buffer.extend c).unread ++ cs.flatten = buffer.unread ++ (c :: cs).flatten := by
  rw [LineBuffer.unread_extend, List.flatten_cons, List.append_assoc]

/-- With a newline to come, the next line is found in the buffer and the chunks
    taken together, and so is what follows it. -/
theorem refill_of_mem {buffer : LineBuffer} {chunks : List Bytes}
    (h : newline ∈ buffer.unread ++ chunks.flatten) :
    ∃ after left, refill buffer chunks =
        (some (cutLine (buffer.unread ++ chunks.flatten)).1, after, left) ∧
      after.unread ++ left.flatten = (cutLine (buffer.unread ++ chunks.flatten)).2 := by
  -- Induction on the chunks, each of which moves into the buffer in its turn.
  induction chunks generalizing buffer with
  | nil =>
    rw [List.flatten_nil, List.append_nil] at h ⊢
    rcases LineBuffer.pop?_of_mem h with ⟨after, hpop, hafter⟩
    exact ⟨after, [], by unfold refill; rw [hpop], by simpa using hafter⟩
  | cons c cs ih =>
    by_cases hb : newline ∈ buffer.unread
    · rcases LineBuffer.pop?_of_mem hb with ⟨after, hpop, hafter⟩
      refine ⟨after, c :: cs, ?_, ?_⟩
      · unfold refill
        rw [hpop, cutLine_append_of_mem hb]
      · rw [hafter, cutLine_append_of_mem hb]
    · rw [← unread_extend_append] at h ⊢
      unfold refill
      rw [LineBuffer.pop?_of_not_mem hb]
      exact ih h

/-- Without a newline to come, all the bytes are collected in the buffer. -/
theorem refill_of_not_mem {buffer : LineBuffer} {chunks : List Bytes}
    (h : newline ∉ buffer.unread ++ chunks.flatten) :
    ∃ after, refill buffer chunks = (none, after, []) ∧
      after.unread = buffer.unread ++ chunks.flatten := by
  have hb : newline ∉ buffer.unread := fun hm => h (List.mem_append_left _ hm)
  induction chunks generalizing buffer with
  | nil =>
    refine ⟨buffer, ?_, by simp⟩
    unfold refill
    rw [LineBuffer.pop?_of_not_mem hb]
  | cons c cs ih =>
    rw [← unread_extend_append] at h ⊢
    unfold refill
    rw [LineBuffer.pop?_of_not_mem hb]
    exact ih h fun hm => h (List.mem_append_left _ hm)

/-- A body without bytes has no next line. -/
theorem nextLine_of_rest_nil {b : Body} (hb : b.Unbroken) (h : b.rest = []) :
    ∃ after, b.nextLine = (.ok none, after) ∧ after.Unbroken ∧ after.rest = [] := by
  cases b with
  | whole rest =>
    have hr : rest = [] := h
    subst hr
    exact ⟨whole [], rfl, trivial, rfl⟩
  | arriving buffer chunks broken =>
    have hbroken : broken = none := hb
    have hall : buffer.unread ++ chunks.flatten = [] := h
    have hno : newline ∉ buffer.unread ++ chunks.flatten := by simp [hall]
    rcases refill_of_not_mem hno with ⟨after, hrefill, hafter⟩
    refine ⟨arriving {} [] none, ?_, rfl, rfl⟩
    simp only [nextLine, hrefill, hbroken, LineBuffer.finish, hafter, hall, if_true]

/-- The next line of a body is the first line of its bytes, and the bytes after
    it are left. -/
theorem nextLine_of_rest_ne_nil {b : Body} (hb : b.Unbroken) (h : b.rest ≠ []) :
    ∃ after, b.nextLine = ((readLine (cutLine b.rest).1).map some, after) ∧
      after.Unbroken ∧ after.rest = (cutLine b.rest).2 := by
  cases b with
  | whole rest =>
    cases rest with
    | nil => exact absurd rfl h
    | cons c cs => exact ⟨whole (cutLine (c :: cs)).2, rfl, trivial, rfl⟩
  | arriving buffer chunks broken =>
    have hbroken : broken = none := hb
    subst hbroken
    have hall : (arriving buffer chunks none).rest = buffer.unread ++ chunks.flatten := rfl
    rw [hall] at h ⊢
    by_cases hm : newline ∈ buffer.unread ++ chunks.flatten
    · rcases refill_of_mem hm with ⟨after, left, hrefill, hafter⟩
      exact ⟨arriving after left none, by simp only [nextLine, hrefill], rfl, hafter⟩
    · -- The stream ends inside a line: what is left is the last line.
      rcases refill_of_not_mem hm with ⟨after, hrefill, hafter⟩
      rw [cutLine_of_not_mem hm]
      refine ⟨arriving {} [] none, ?_, rfl, rfl⟩
      simp only [nextLine, hrefill, LineBuffer.finish, hafter, h, if_false]

end Body

end ColumnStore
