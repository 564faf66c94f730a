import ColumnStore.Wire.Line

/-!
# Buffers of Lines

Bytes that arrived and are not read yet. Lines are taken off the front by moving
the place at which reading goes on, and what was read is dropped only when more
bytes arrive. So a chunk with many lines is not copied for each of them.

## Main definitions

* `LineBuffer`: Bytes and the place at which reading goes on.
* `LineBuffer.extend`: The buffer with more bytes.
* `LineBuffer.pop?`: The next whole line.
* `LineBuffer.finish`: What is left at the end.
-/

namespace ColumnStore

namespace Wire

/-- Bytes that arrived, and how many of them are read. -/
structure LineBuffer where
  /-- The bytes. -/
  pending : Bytes := []
  /-- The place of the first line that is not read. -/
  start : Nat := 0

namespace LineBuffer

/-- The bytes that are not read. -/
def unread (b : LineBuffer) : Bytes :=
  b.pending.drop b.start

/-- The buffer with more bytes. What was read is dropped. -/
def extend (b : LineBuffer) (chunk : Bytes) : LineBuffer :=
  ⟨b.unread ++ chunk, 0⟩

/-- The next whole line, if there is one, and the buffer after it. -/
def pop? (b : LineBuffer) : Option (Bytes × LineBuffer) :=
  if newline ∈ b.unread then
    let line := (cutLine b.unread).1
    some (line, { b with start := b.start + line.length })
  else none

/-- What is left once nothing more arrives, and the buffer after it. -/
def finish (b : LineBuffer) : Bytes × LineBuffer :=
  (b.unread, {})

end LineBuffer

end Wire

end ColumnStore
