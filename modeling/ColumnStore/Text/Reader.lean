import ColumnStore.Text.Blank

/-!
# Readers

A reader takes one item off the front of a text, or refuses. The grammars of
literals, type names and documents are written with the few combinators below.

Lists separated by a mark are read greedily and without regret at the last
mark: where no item follows a mark, the list ends *before* that mark, and
whatever encloses the list then meets the mark and refuses it. So a trailing
comma is an error of the enclosing bracket, never of the list.

## Main definitions

* `Reader`: A function that gives an item and the text after it.
* `Reader.exactly`, `Reader.ignoringCase`: Fixed words.
* `Reader.while1`: The longest nonempty run of a class of characters.
* `Reader.spaced`, `Reader.enclosed`: An item among blanks, or in brackets.
* `Reader.separated`, `Reader.separated1`: Lists of items.
* `Reader.all`: An item that must be the whole text.
-/

namespace ColumnStore

namespace Text

/-- Takes an item off the front of a text. -/
abbrev Reader (α : Type) := List Char → Option (α × List Char)

namespace Reader

variable {α β : Type}

/-- A fixed text. -/
def exactly : List Char → Reader Unit
  | [], s => some ((), s)
  | _ :: _, [] => none
  | t :: ts, c :: s => if c = t then exactly ts s else none

/-- A fixed word in lower case, in whatever case the text has it. Letters
    beyond ASCII match themselves only. -/
def ignoringCase : List Char → Reader Unit
  | [], s => some ((), s)
  | _ :: _, [] => none
  | t :: ts, c :: s => if c.toLower = t then ignoringCase ts s else none

/-- One character. -/
def char (c : Char) : Reader Unit :=
  exactly [c]

/-- The longest run of characters of a class, which must not be empty. -/
def while1 (p : Char → Bool) : Reader (List Char) := fun s =>
  match s.takeWhile p with
  | [] => none
  | c :: run => some (c :: run, s.dropWhile p)

/-- Blanks, perhaps none. -/
def blanks : Reader Unit := fun s =>
  some ((), skipBlanks s)

/-- An item with blanks allowed on either side. -/
def spaced (item : Reader α) : Reader α := fun s => do
  let (x, r) ← item (skipBlanks s)
  pure (x, skipBlanks r)

/-- An item between brackets, with blanks allowed inside them. -/
def enclosed (opening closing : Char) (item : Reader α) : Reader α := fun s => do
  let (_, r) ← char opening s
  let (x, r) ← spaced item r
  let (_, r) ← char closing r
  pure (x, r)

/-- A mark with blanks allowed on either side. -/
def mark (c : Char) : Reader Unit :=
  spaced (char c)

/-- An item or nothing. -/
def optional (item : Reader α) : Reader (Option α) := fun s =>
  match item s with
  | some (x, r) => some (some x, r)
  | none => some (none, s)

/-- Further items, each after a separator; at most `n` of them. The text is
    left as it stands before the first separator that no item follows. -/
def furtherItems (separator : Reader Unit) (item : Reader α) :
    Nat → List Char → List α × List Char
  | 0, s => ([], s)
  | n + 1, s =>
    match separator s with
    | none => ([], s)
    | some (_, r) =>
      match item r with
      | none => ([], s)
      | some (x, r) =>
        let (xs, r) := furtherItems separator item n r
        (x :: xs, r)

/-- One item or more, with a separator between neighbours. A separator takes
    at least one character, so the length of the text bounds their number. -/
def separated1 (separator : Reader Unit) (item : Reader α) : Reader (List α) := fun s => do
  let (x, r) ← item s
  let (xs, r) := furtherItems separator item r.length r
  pure (x :: xs, r)

/-- Items with a separator between neighbours, perhaps none. -/
def separated (separator : Reader Unit) (item : Reader α) : Reader (List α) := fun s =>
  match separated1 separator item s with
  | some found => some found
  | none => some ([], s)

/-- Two items with a separator between them. -/
def pairOf (first : Reader α) (separator : Reader Unit) (second : Reader β) : Reader (α × β) :=
  fun s => do
    let (x, r) ← first s
    let (_, r) ← separator r
    let (y, r) ← second r
    pure ((x, y), r)

/-- An item that is the whole text. -/
def all (item : Reader α) (s : List Char) : Option α :=
  match item s with
  | some (x, []) => some x
  | _ => none

/-- A fixed text is read where it stands. -/
theorem exactly_append (t s : List Char) : exactly t (t ++ s) = some ((), s) := by
  induction t with
  | nil => rfl
  | cons c t ih => simp [exactly, ih]

theorem char_cons (c : Char) (r : List Char) : char c (c :: r) = some ((), r) := by
  simp [char, exactly]

theorem char_cons_of_ne {c d : Char} (h : d ≠ c) (r : List Char) : char c (d :: r) = none := by
  simp [char, exactly, h]

/-- A fixed text takes itself off the front and nothing else. -/
theorem eq_append_of_exactly {t s r : List Char} (h : exactly t s = some ((), r)) :
    s = t ++ r := by
  induction t generalizing s with
  | nil => simpa [exactly] using h
  | cons c t ih =>
    cases s with
    | nil => simp [exactly] at h
    | cons d s =>
      simp only [exactly] at h
      split at h
      · next hd => rw [hd, ih h, List.cons_append]
      · simp at h

end Reader

end Text

end ColumnStore
