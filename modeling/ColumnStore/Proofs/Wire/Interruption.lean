import ColumnStore.Proofs.Wire.Answer

/-!
# Responses that Break Off

A stream may break off in the middle of a line. What has arrived of that line could look
like a whole line with fewer or shorter cells, so it is dropped, whereas at the regular end
of a response such a line counts. The lines before it are given as ever, wherever the
chunks were cut, and the failure of the stream stands where the next line would.

A response that breaks off inside its header opens no cursor.

## Main definitions

* `Wire.wholeLines`: The lines of some bytes that have their ends.
* `wholeTexts`: The same as texts.
* `Answer.readBroken`: What had arrived of an answer.
* `Body.BreaksOff`: A body that fails once its bytes have arrived.
* `Cursor.brokenRows`: The rows that a cursor at such a body has not given yet.

## Theorems

* `Wire.length_wholeLines`: There is a whole line for each newline.
* `Wire.exists_eq_wholeLines_append`: They are all there is up to the last newline.
* `Cursor.takeLine_of_whole_nil`, `Cursor.takeLine_of_whole_cons`: The whole lines are
  taken in order, and then the failure.
* `Cursor.next_brokenRows`: A call gives the first row that is left.
* `Cursor.start_of_breaksOff`: What a cursor makes of a response that breaks off.
-/

namespace ColumnStore

open Wire

namespace Wire

/-- The lines of some bytes that have their ends. -/
def wholeLines (bs : Bytes) : List Bytes :=
  (lines bs).filter fun line => line.getLast? = some newline

/-- The first line of bytes with a newline ends at the first of these. -/
theorem cutLine_of_mem {bs : Bytes} (h : newline ∈ bs) :
    ∃ front, newline ∉ front ∧ (cutLine bs).1 = front ++ [newline] := by
  induction bs with
  | nil => cases h
  | cons b bs ih =>
    by_cases hb : b = newline
    · exact ⟨[], List.not_mem_nil, by rw [cutLine, if_pos hb, hb, List.nil_append]⟩
    · have hne : newline ≠ b := fun e => hb e.symm
      rcases ih ((List.mem_cons.1 h).resolve_left hne) with ⟨front, hfront, hcut⟩
      refine ⟨b :: front, ?_, ?_⟩
      · rw [List.mem_cons, not_or]
        exact ⟨hne, hfront⟩
      · simp only [cutLine, if_neg hb, hcut, List.cons_append]

/-- Bytes without a newline are one line at most, and that one is not whole. -/
theorem wholeLines_of_not_mem {bs : Bytes} (h : newline ∉ bs) : wholeLines bs = [] := by
  rw [wholeLines, List.filter_eq_nil_iff]
  intro line hline hend
  rw [decide_eq_true_eq] at hend
  have hmem : newline ∈ (lines bs).flatten :=
    List.mem_flatten.2 ⟨line, hline, List.mem_of_getLast? hend⟩
  rw [flatten_lines] at hmem
  exact h hmem

/-- With a newline the first line is whole, and the others are those of what follows it. -/
theorem wholeLines_of_mem {bs : Bytes} (h : newline ∈ bs) :
    wholeLines bs = (cutLine bs).1 :: wholeLines (cutLine bs).2 := by
  rcases cutLine_of_mem h with ⟨front, -, hcut⟩
  have hend : (cutLine bs).1.getLast? = some newline := by rw [hcut, List.getLast?_concat]
  rw [wholeLines, lines_of_ne_nil (List.ne_nil_of_mem h), List.filter_cons,
    if_pos (decide_eq_true hend)]
  rfl

/-- There is a whole line for each newline. -/
theorem length_wholeLines (bs : Bytes) : (wholeLines bs).length = bs.count newline := by
  by_cases h : newline ∈ bs
  · have hlt := length_cutLine_lt (List.ne_nil_of_mem h)
    have ih := length_wholeLines (cutLine bs).2
    rcases cutLine_of_mem h with ⟨front, hfront, hcut⟩
    -- The first line holds the first newline and no other.
    have hfirst : (cutLine bs).1.count newline = 1 := by
      rw [hcut, List.count_append, List.count_eq_zero_of_not_mem hfront, List.count_singleton_self]
    have hall : bs.count newline =
        (cutLine bs).1.count newline + (cutLine bs).2.count newline := by
      rw [← List.count_append, cutLine_append]
    rw [wholeLines_of_mem h, List.length_cons, ih, hall, hfirst, Nat.add_comm]
  · rw [wholeLines_of_not_mem h, List.count_eq_zero_of_not_mem h, List.length_nil]
termination_by bs.length

/-- The whole lines come first, and no newline is left after them. -/
theorem exists_eq_wholeLines_append (bs : Bytes) :
    ∃ tail, newline ∉ tail ∧ bs = (wholeLines bs).flatten ++ tail := by
  by_cases h : newline ∈ bs
  · have hlt := length_cutLine_lt (List.ne_nil_of_mem h)
    rcases exists_eq_wholeLines_append (cutLine bs).2 with ⟨tail, htail, hrest⟩
    refine ⟨tail, htail, ?_⟩
    rw [wholeLines_of_mem h, List.flatten_cons, List.append_assoc, ← hrest, cutLine_append]
  · exact ⟨bs, h, by rw [wholeLines_of_not_mem h, List.flatten_nil, List.nil_append]⟩
termination_by bs.length

end Wire

/-- The lines of some bytes that have their ends, as texts. A line that is not a text is a
    failure, which names the statement. -/
def wholeTexts (statement : String) (bytes : Bytes) : List (Except Failure (List Char)) :=
  (wholeLines bytes).map fun line => (Body.readLine line).mapError (·.withStatement statement)

/-- What had arrived of an answer when its stream failed. Two whole lines are a header; with
    fewer there is none, and the failure is reported unless the line of names is no text.
    The other whole lines are rows up to the first that is none. If all of them are rows,
    the failure comes after them. -/
def Answer.readBroken (statement : String) (failure : Failure) (bytes : Bytes) :
    Except Failure Answer :=
  match wholeTexts statement bytes with
  | [] => .error (failure.withStatement statement)
  | [nameLine] => do
    let _ ← nameLine
    throw (failure.withStatement statement)
  | nameLine :: typeLine :: texts => do
    let header ← Header.read statement (← nameLine) (← typeLine)
    pure ⟨statement, header,
      rowsOf statement header (texts ++ [.error (failure.withStatement statement)])⟩

namespace Body

/-- A body that fails once its bytes have arrived. -/
def BreaksOff (failure : Failure) : Body → Prop
  | whole _ => False
  | arriving _ _ broken => broken = some failure

end Body

namespace Cursor

variable {statement : String} {failure : Failure} {b : Body}

/-- Without a whole line the failure comes next, and what has arrived is dropped. -/
theorem takeLine_of_whole_nil (hb : b.BreaksOff failure) (h : wholeTexts statement b.rest = []) :
    takeLine statement b = (.error (failure.withStatement statement), Body.ended) := by
  cases b with
  | whole rest => cases hb
  | arriving buffer chunks broken =>
    have hbroken : broken = some failure := hb
    have hno : newline ∉ buffer.unread ++ chunks.flatten := by
      intro hmem
      rw [Body.rest, wholeTexts, wholeLines_of_mem hmem, List.map_cons] at h
      cases h
    rcases Body.refill_of_not_mem hno with ⟨after, hrefill, -⟩
    simp only [takeLine, Body.nextLine, hrefill, hbroken]
    rfl

/-- A whole line comes next, and the failure stays ahead. -/
theorem takeLine_of_whole_cons {line : Except Failure (List Char)}
    {texts : List (Except Failure (List Char))} (hb : b.BreaksOff failure)
    (h : wholeTexts statement b.rest = line :: texts) :
    ∃ after, takeLine statement b = (line.map some, after) ∧ after.BreaksOff failure ∧
      wholeTexts statement after.rest = texts := by
  cases b with
  | whole rest => cases hb
  | arriving buffer chunks broken =>
    have hmem : newline ∈ buffer.unread ++ chunks.flatten := by
      by_contra hno
      rw [Body.rest, wholeTexts, wholeLines_of_not_mem hno] at h
      cases h
    rw [Body.rest, wholeTexts, wholeLines_of_mem hmem, List.map_cons, List.cons.injEq] at h
    rcases Body.refill_of_mem hmem with ⟨after, left, hrefill, hafter⟩
    refine ⟨.arriving after left broken, ?_, hb, ?_⟩
    · simp only [takeLine, Body.nextLine, hrefill, ← h.1]
      cases Body.readLine (cutLine (buffer.unread ++ chunks.flatten)).1 with
      | error e => rfl
      | ok text => rfl
    · rw [Body.rest, hafter]
      exact h.2

/-- The rows that a cursor has not given yet if its body fails in the end. The failure is
    the last of them unless a row is a failure itself. -/
def brokenRows (failure : Failure) (c : Cursor) : List (Except Failure Cells) :=
  match c.header, c.isOpen with
  | some header, true => rowsOf c.statement header
      (wholeTexts c.statement c.body.rest ++ [.error (failure.withStatement c.statement)])
  | _, _ => []

/-- A call gives the first row that is left, and the others are left after it. -/
theorem next_brokenRows {c : Cursor} (hc : c.isOpen = true → c.body.BreaksOff failure) :
    c.next.1 = (c.brokenRows failure).head? ∧
      (c.next.2.isOpen = true → c.next.2.body.BreaksOff failure) ∧
      c.next.2.brokenRows failure = (c.brokenRows failure).tail := by
  rcases c with ⟨header, body, statement, isOpen⟩
  cases header with
  | none => exact ⟨rfl, hc, rfl⟩
  | some header =>
    cases isOpen with
    | false => exact ⟨rfl, hc, rfl⟩
    | true =>
      cases hl : wholeTexts statement body.rest with
      | nil =>
        -- The failure of the stream closes the cursor.
        have htake := takeLine_of_whole_nil (hc rfl) hl
        simp only [next, htake, brokenRows, hl]
        refine ⟨rfl, ?_, rfl⟩
        intro hopen
        cases hopen
      | cons line texts =>
        rcases takeLine_of_whole_cons (hc rfl) hl with ⟨after, htake, hafter, hrest⟩
        rw [next_of_takeLine htake]
        simp only [brokenRows, hl, List.cons_append, rowsOf_cons]
        cases line.bind (header.cells statement) with
        | error e =>
          refine ⟨rfl, ?_, rfl⟩
          intro hopen
          cases hopen
        | ok cells =>
          refine ⟨rfl, fun _ => hafter, ?_⟩
          simp only [hrest, List.tail_cons]

/-- A cursor gives the rows that are left, the failure if it comes to it, and nothing
    more. -/
theorem yields_brokenRows {c : Cursor} (hc : c.isOpen = true → c.body.BreaksOff failure) :
    Yields Cursor.next c (c.brokenRows failure) :=
  yields_of_step (fun c => c.isOpen = true → c.body.BreaksOff failure) (brokenRows failure)
    (fun _ h => next_brokenRows h) hc

/-- However the chunks of a response were cut that breaks off, a cursor for a question is
    opened at what had arrived of the answer, or is refused as that is. What had arrived is a
    line for each newline, and of the bytes after the last one nothing is looked at. -/
theorem start_of_breaksOff (text : String) (chunks : List Bytes) (failure : Failure) :
    (wholeTexts text chunks.flatten).length = chunks.flatten.count newline ∧
      (∃ tail, newline ∉ tail ∧ chunks.flatten = (wholeLines chunks.flatten).flatten ++ tail) ∧
      match Answer.readBroken text failure chunks.flatten with
      | .error e => start ⟨text, true⟩ (Body.stream [] chunks (some failure)) = .error e
      | .ok a => ∃ c, start ⟨text, true⟩ (Body.stream [] chunks (some failure)) = .ok c ∧
          c.header = some a.header ∧ Yields Cursor.next c a.rows := by
  have hb : (Body.stream [] chunks (some failure)).BreaksOff failure := rfl
  rw [← Body.rest_stream chunks (some failure)]
  generalize Body.stream [] chunks (some failure) = b at hb
  refine ⟨by rw [wholeTexts, List.length_map, length_wholeLines],
    exists_eq_wholeLines_append _, ?_⟩
  unfold Answer.readBroken
  cases h : wholeTexts text b.rest with
  | nil => exact start_of_takeLine_error (takeLine_of_whole_nil hb h)
  | cons names texts =>
    rcases takeLine_of_whole_cons hb h with ⟨after, hnames, hafter, hrest⟩
    cases names with
    | error e =>
      -- Nothing after the first line matters then.
      have hstart := start_of_takeLine_error hnames
      cases texts with
      | nil => exact hstart
      | cons types texts => exact hstart
    | ok names =>
      cases texts with
      | nil =>
        -- The failure stands in place of the types.
        have htypes : takeLine text after =
            ((Except.error (failure.withStatement text) : Except Failure (List Char)).map some,
              Body.ended) := takeLine_of_whole_nil hafter hrest
        exact start_of_takeLine hnames htypes
      | cons types texts =>
        rcases takeLine_of_whole_cons hafter hrest with ⟨last, htypes, hlast, hrest'⟩
        have hstart := start_of_takeLine hnames htypes
        cases types with
        | error e => exact hstart
        | ok types =>
          rw [Except.bind] at hstart
          simp only [bind, Except.bind]
          cases hheader : Header.read text names types with
          | error e =>
            rw [hheader] at hstart
            exact hstart
          | ok header =>
            rw [hheader] at hstart
            refine ⟨_, hstart, rfl, ?_⟩
            have hyields := yields_brokenRows (c := ⟨some header, last, text, true⟩) fun _ => hlast
            rwa [brokenRows, hrest'] at hyields

end Cursor

end ColumnStore
