/-!
# Lines of a Response

A response is a sequence of bytes, cut into lines after each newline. A line
ends with its newline, which the last one may lack, and a carriage return before
the newline does not belong to its text. A line whose bytes are not UTF-8 has no
text.

## Main definitions

* `Bytes`: Bytes as they arrive.
* `cutLine`: The first line and what follows it.
* `lineText?`: The text of a line.
* `lines`: All lines.

## Theorems

* `cutLine_append`: The first line and what follows it are all there is.
* `length_cutLine_lt`: What follows a line is shorter.
* `cutLine_append_of_mem`: What follows a whole line does not matter to it.
* `flatten_lines`: The lines are all there is.
-/

namespace ColumnStore

/-- Bytes as they arrive. -/
abbrev Bytes := List UInt8

namespace Wire

/-- The byte that ends a line. -/
def newline : UInt8 := 10

/-- The byte that may stand before the end of a line. -/
def carriageReturn : UInt8 := 13

/-- The text of some bytes, if they are UTF-8. -/
def text? (b : Bytes) : Option (List Char) :=
  (String.fromUTF8? (ByteArray.mk b.toArray)).map String.toList

/-- The bytes up to the first newline, which is included, and the others. -/
def cutLine : Bytes → Bytes × Bytes
  | [] => ([], [])
  | b :: bs =>
    if b = newline then ([b], bs)
    else
      let (line, rest) := cutLine bs
      (b :: line, rest)

/-- Bytes without a given one at their end. -/
def dropLastIf (b : UInt8) (bs : Bytes) : Bytes :=
  if bs.getLast? = some b then bs.dropLast else bs

/-- The text of a line without its end. -/
def lineText? (line : Bytes) : Option (List Char) :=
  text? (dropLastIf carriageReturn (dropLastIf newline line))

/-- The first line and what follows it are all there is. -/
theorem cutLine_append (bs : Bytes) : (cutLine bs).1 ++ (cutLine bs).2 = bs := by
  induction bs with
  | nil => rfl
  | cons b bs ih =>
    by_cases h : b = newline
    · simp [cutLine, h]
    · simpa [cutLine, h] using ih

/-- What follows a line is shorter than the line with it. -/
theorem length_cutLine_lt {bs : Bytes} (h : bs ≠ []) : (cutLine bs).2.length < bs.length := by
  cases bs with
  | nil => exact absurd rfl h
  | cons b bs =>
    have hlen := congrArg List.length (cutLine_append bs)
    simp only [List.length_append] at hlen
    by_cases hb : b = newline
    · simp [cutLine, hb]
    · simp only [cutLine, hb, if_false, List.length_cons]
      omega

/-- The first line of bytes that hold a whole line is the same whatever follows
    them. -/
theorem cutLine_append_of_mem {bs : Bytes} (h : newline ∈ bs) (more : Bytes) :
    cutLine (bs ++ more) = ((cutLine bs).1, (cutLine bs).2 ++ more) := by
  induction bs with
  | nil => simp at h
  | cons b bs ih =>
    by_cases hb : b = newline
    · simp [cutLine, hb]
    · have hm : newline ∈ bs := by
        rcases List.mem_cons.1 h with h | h
        · exact absurd h.symm hb
        · exact h
      simp [cutLine, hb, ih hm]

/-- All lines, each with its end. -/
def lines (bs : Bytes) : List Bytes :=
  match bs with
  | [] => []
  | b :: rest => (cutLine (b :: rest)).1 :: lines (cutLine (b :: rest)).2
termination_by bs.length
decreasing_by exact length_cutLine_lt (by simp)

/-- The lines, one after the other, are all there is. -/
theorem flatten_lines (bs : Bytes) : (lines bs).flatten = bs := by
  match bs with
  | [] => simp [lines]
  | b :: rest =>
    have ih := flatten_lines (cutLine (b :: rest)).2
    rw [lines, List.flatten_cons, ih, cutLine_append]
termination_by bs.length
decreasing_by exact length_cutLine_lt (by simp)

end Wire

end ColumnStore
