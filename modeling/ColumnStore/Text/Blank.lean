/-!
# Blanks and White Space

Two classes of characters that separate tokens, and the cutting of text at
them.

The grammars of literals and type names skip *blanks*: space, tab, line feed
and carriage return, and nothing else. Where a number or a message is trimmed,
the wider class *space* applies, the Unicode property `White_Space`. A no-break
space is therefore trimmed around a number but ends a literal.

## Main definitions

* `isBlank`, `isSpace`: The two classes.
* `skipBlanks`: Text without its leading blanks.
* `trim`: Text without white space at either end.
-/

namespace ColumnStore

namespace Text

/-- The blanks that the grammars skip. -/
def isBlank (c : Char) : Bool :=
  c = ' ' || c = '\t' || c = '\n' || c = '\r'

/-- White space in the sense of the Unicode property `White_Space`. -/
def isSpace (c : Char) : Bool :=
  let n := c.toNat
  (9 ≤ n && n ≤ 13) || n = 0x20 || n = 0x85 || n = 0xA0 || n = 0x1680
    || (0x2000 ≤ n && n ≤ 0x200A) || n = 0x2028 || n = 0x2029 || n = 0x202F
    || n = 0x205F || n = 0x3000

/-- Text without its leading blanks. -/
def skipBlanks (s : List Char) : List Char :=
  s.dropWhile isBlank

/-- Text without leading white space. -/
def trimLeft (s : List Char) : List Char :=
  s.dropWhile isSpace

/-- Text without trailing characters of a class. -/
def dropWhileRight (p : Char → Bool) (s : List Char) : List Char :=
  (s.reverse.dropWhile p).reverse

/-- Text without white space at either end. -/
def trim (s : List Char) : List Char :=
  dropWhileRight isSpace (trimLeft s)

/-- Every blank is white space. -/
theorem isSpace_of_isBlank {c : Char} (h : isBlank c = true) : isSpace c = true := by
  simp only [isBlank, Bool.or_eq_true, decide_eq_true_eq] at h
  rcases h with ((rfl | rfl) | rfl) | rfl <;> rfl

/-- Skipping blanks twice is skipping them once. -/
theorem skipBlanks_skipBlanks (s : List Char) : skipBlanks (skipBlanks s) = skipBlanks s := by
  induction s with
  | nil => rfl
  | cons c r ih =>
    by_cases h : isBlank c <;> simp_all [skipBlanks]

/-- Skipping blanks never lengthens text. -/
theorem length_skipBlanks_le (s : List Char) : (skipBlanks s).length ≤ s.length :=
  (List.dropWhile_sublist _).length_le

end Text

end ColumnStore
