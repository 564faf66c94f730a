import ColumnStore.Proofs.Wire.Lockstep
import ColumnStore.Proofs.Wire.Written
import ColumnStore.Session.Basic

/-!
# Answers as One Text

All that is left of an answer may be asked for as one text. A reader that waits gives the
text of the bytes. A reader that takes them as they arrive has only lines, and puts the
text together from them: each line gets a newline at its end, whatever its end was before.
So a carriage return before the end of a line is lost, a last line without an end gets one,
and a single empty line is taken for no text at all. The two texts are equal in no other
case.

Lines are cut from bytes. That the same lines are found among the characters holds because
the byte of a newline is part of no other character.

## Main definitions

* `Wire.charLines`: The lines of a text, each with its end.
* `Wire.withoutEnd`: A line without its end.
* `Wire.rejoined`: A text put together from its lines.
* `Wire.asRead`: The text that a reader gives.
* `Cursor.leftOf`: The part of an answer that a cursor has before it.

## Theorems

* `Wire.lines_encode`: The lines of the bytes of a text are the lines of the text.
* `Wire.rejoined_eq_iff`: When a text is put together as it was.
* `Body.text_eq`: All that is left of a body as one text.
* `Cursor.texts_of_start`: The texts of an answer, and when they are equal.
* `Session.version_ended`: A text that only one reader ends with a newline.
-/

namespace ColumnStore

namespace Wire

/-- The lines of a text, each with its end. -/
def charLines : List Char → List (List Char)
  | [] => []
  | c :: s =>
    if c = '\n' then [c] :: charLines s
    else match charLines s with
      | [] => [[c]]
      | line :: lines => (c :: line) :: lines

/-- A text without a given character at its end. -/
def dropEnd (c : Char) (s : List Char) : List Char :=
  if s.getLast? = some c then s.dropLast else s

/-- A line without its end. -/
def withoutEnd (line : List Char) : List Char :=
  dropEnd '\r' (dropEnd '\n' line)

/-- A text put together from its lines, each of which gets a newline at its end. -/
def rejoined (t : List Char) : List Char :=
  Body.joinLines ((charLines t).map withoutEnd)

/-- The text that a reader gives for the bytes of a text. -/
def asRead : Mode → List Char → List Char
  | .blocking, t => t
  | .streaming, t => rejoined t

/-! ## Bytes and characters -/

/-- Bytes that have a text are the bytes of that text. -/
theorem eq_encode_of_text? {bs : Bytes} {t : List Char} (h : text? bs = some t) :
    bs = encode t := by
  rcases Option.map_eq_some_iff.1 h with ⟨s, hs, hst⟩
  unfold String.fromUTF8? at hs
  split at hs
  · have hbytes : s.toByteArray = ByteArray.mk bs.toArray := by
      rw [← Option.some.inj hs]
      rfl
    have hcoded : s.toByteArray = t.utf8Encode := by
      rw [← hst, ← String.toByteArray_ofList, String.ofList_toList]
    have hmk : ByteArray.mk (encode t).toArray = t.utf8Encode :=
      (ByteArray.ext List.data_toByteArray).symm
    have hall := hbytes.symm.trans (hcoded.trans hmk.symm)
    simpa using congrArg (fun a => a.data.toList) hall
  · cases hs

theorem encode_append (s t : List Char) : encode (s ++ t) = encode s ++ encode t :=
  List.flatMap_append

theorem encode_flatten (texts : List (List Char)) :
    encode texts.flatten = (texts.map encode).flatten := by
  induction texts with
  | nil => rfl
  | cons t texts ih => rw [List.flatten_cons, encode_append, ih, List.map_cons, List.flatten_cons]

/-- The lines of the bytes of a text are the lines of the text. -/
theorem lines_encode (t : List Char) : lines (encode t) = (charLines t).map encode := by
  induction t with
  | nil => exact lines_nil
  | cons c s ih =>
    rw [lines_of_ne_nil (encode_ne_nil (List.cons_ne_nil c s)), charLines]
    by_cases hc : c = '\n'
    · subst hc
      have hcut : cutLine (encode ('\n' :: s)) = ([newline], encode s) := rfl
      rw [hcut, if_pos rfl, ih]
      rfl
    · -- The bytes of another character belong to the line that follows them.
      have hno : newline ∉ String.utf8EncodeChar c := by
        intro hmem
        exact hc (Char.toNat_inj.1 (toNat_of_mem_utf8EncodeChar (by decide) hmem))
      have hencode : encode (c :: s) = String.utf8EncodeChar c ++ encode s := rfl
      rw [hencode, cutLine_append_of_not_mem hno, if_neg hc]
      by_cases hs : s = []
      · subst hs
        simp [charLines, encode, cutLine]
      · rw [lines_of_ne_nil (encode_ne_nil hs)] at ih
        cases hlines : charLines s with
        | nil =>
          rw [hlines] at ih
          cases ih
        | cons line rest =>
          rw [hlines, List.map_cons, List.cons.injEq] at ih
          rw [ih.1, ih.2]
          rfl

/-- A byte that is all there is of a character is dropped as the character is. -/
theorem dropLastIf_encode {c : Char} {b : UInt8} (hb : b.toNat < 128)
    (hc : String.utf8EncodeChar c = [b]) (s : List Char) :
    dropLastIf b (encode s) = encode (dropEnd c s) := by
  rcases List.eq_nil_or_concat' s with rfl | ⟨front, d, rfl⟩
  · rfl
  · have hone : encode [d] = String.utf8EncodeChar d := List.append_nil _
    by_cases hd : d = c
    · subst hd
      rw [encode_append, hone, hc, dropLastIf, if_pos List.getLast?_concat, List.dropLast_concat,
        dropEnd, if_pos List.getLast?_concat, List.dropLast_concat]
    · have hlast : (encode (front ++ [d])).getLast? ≠ some b := by
        intro he
        have hmem : b ∈ String.utf8EncodeChar d := by
          rw [encode_append, List.getLast?_append_of_ne_nil _ (encode_ne_nil (by simp)), hone] at he
          exact List.mem_of_getLast? he
        have hown := toNat_of_mem_utf8EncodeChar hb (hc ▸ List.mem_singleton_self b)
        exact hd (Char.toNat_inj.1 ((toNat_of_mem_utf8EncodeChar hb hmem).trans hown.symm))
      rw [dropLastIf, if_neg hlast, dropEnd, if_neg (by simpa using hd)]

/-- The text of a line is the line without its end. -/
theorem readLine_encode (line : List Char) :
    Body.readLine (encode line) = .ok (withoutEnd line) := by
  have hnewline : String.utf8EncodeChar '\n' = [newline] := by decide
  have hreturn : String.utf8EncodeChar '\r' = [carriageReturn] := by decide
  rw [Body.readLine, lineText?, dropLastIf_encode (by decide) hnewline,
    dropLastIf_encode (by decide) hreturn, text?_encode]
  rfl

theorem length_lines_le (bs : Bytes) : (lines bs).length ≤ bs.length := by
  by_cases hbs : bs = []
  · simp [hbs]
  · have hrest := length_lines_le (cutLine bs).2
    have hshorter := length_cutLine_lt hbs
    rw [lines_of_ne_nil hbs, List.length_cons]
    omega
termination_by bs.length
decreasing_by exact length_cutLine_lt hbs

/-! ## Lines put together -/

/-- A text with a newline in place of the end of each line. -/
def terminated (t : List Char) : List Char :=
  (charLines t).flatMap fun line => withoutEnd line ++ ['\n']

/-- Lines are joined by ending each of them, unless there is no character in them. -/
theorem joinLines_eq (texts : List (List Char)) :
    Body.joinLines texts = if texts = [[]] then [] else texts.flatMap (· ++ ['\n']) := by
  have hended : ∀ (text : List Char) (texts : List (List Char)),
      ['\n'].intercalate (text :: texts) ++ ['\n'] = (text :: texts).flatMap (· ++ ['\n']) := by
    intro text texts
    induction texts generalizing text with
    | nil => simp [List.intercalate]
    | cons next texts ih =>
      rw [List.flatMap_cons, ← ih next]
      simp [List.intercalate, List.intersperse]
  unfold Body.joinLines
  cases texts with
  | nil => rfl
  | cons text texts =>
    cases texts with
    | nil =>
      cases text with
      | nil => rfl
      | cons c s => simp [List.intercalate]
    | cons next texts =>
      have hne : ['\n'].intercalate (text :: next :: texts) ≠ [] := by
        simp [List.intercalate, List.intersperse]
      dsimp only
      rw [if_neg hne, hended, if_neg (by simp)]

theorem dropEnd_cons (e c : Char) {s : List Char} (hs : s ≠ []) :
    dropEnd e (c :: s) = c :: dropEnd e s := by
  unfold dropEnd
  rw [List.getLast?_cons_of_ne_nil hs, List.dropLast_cons_of_ne_nil hs]
  split <;> rfl

/-- A character before another one that is no newline is not part of an end. -/
theorem withoutEnd_cons_cons (c : Char) {d : Char} (hd : d ≠ '\n') (s : List Char) :
    withoutEnd (c :: d :: s) = c :: withoutEnd (d :: s) := by
  have hkept : dropEnd '\n' (d :: s) ≠ [] := by
    cases s with
    | nil => simp [dropEnd, hd]
    | cons e s => simp [dropEnd_cons]
  rw [withoutEnd, dropEnd_cons _ _ (List.cons_ne_nil d s), dropEnd_cons _ _ hkept, withoutEnd]

theorem terminated_newline (s : List Char) : terminated ('\n' :: s) = '\n' :: terminated s := rfl

/-- A character that is no newline starts the first line. -/
theorem charLines_cons {c : Char} (hc : c ≠ '\n') (s : List Char) :
    ∃ line rest, charLines (c :: s) = (c :: line) :: rest := by
  rw [charLines, if_neg hc]
  cases charLines s with
  | nil => exact ⟨[], [], rfl⟩
  | cons line rest => exact ⟨line, rest, rfl⟩

/-- A character inside a line stays, unless it is a carriage return before the end. -/
theorem terminated_cons {c : Char} (hc : c ≠ '\n') {s : List Char} (hs : s ≠ []) :
    terminated (c :: s) =
      if c = '\r' ∧ s.head? = some '\n' then terminated s else c :: terminated s := by
  cases s with
  | nil => exact absurd rfl hs
  | cons d s =>
    by_cases hd : d = '\n'
    · -- The two characters are a line, which is empty if the first one is a carriage return.
      subst hd
      by_cases hreturn : c = '\r'
      · subst hreturn
        rfl
      · simp [terminated, charLines, hc, withoutEnd, dropEnd, hreturn]
    · -- The line goes on, and its end is that of the line without its first character.
      rcases charLines_cons hd s with ⟨line, rest, hlines⟩
      have hlonger : charLines (c :: d :: s) = (c :: d :: line) :: rest := by
        rw [charLines, if_neg hc, hlines]
      rw [terminated, terminated, hlonger, hlines, List.flatMap_cons, List.flatMap_cons,
        withoutEnd_cons_cons c hd, if_neg (by simp [hd])]
      rfl

/-- A text whose lines all have a newline for an end is one that ends with a newline, and
    where none stands after a carriage return. -/
theorem terminated_eq_iff (t : List Char) :
    terminated t = t ↔
      (t = [] ∨ t.getLast? = some '\n') ∧ ¬ ['\r', '\n'] <:+: t := by
  -- Induction on the text; what a step adds depends on the character and the one after it.
  induction t with
  | nil => simp [terminated, charLines]
  | cons c s ih =>
    by_cases hc : c = '\n'
    · subst hc
      rw [terminated_newline, List.cons.injEq, ih, List.infix_cons_iff]
      cases s with
      | nil => simp
      | cons d s => simp [List.getLast?_cons_cons]
    · by_cases hs : s = []
      · -- A last character that is no newline is replaced by one, or gets one after it.
        subst hs
        have hlonger : terminated [c] ≠ [c] := by
          by_cases hreturn : c = '\r'
          · subst hreturn
            decide
          · simp [terminated, charLines, hc, withoutEnd, dropEnd, hreturn]
        simp [hlonger, hc]
      · rw [terminated_cons hc hs, List.infix_cons_iff, List.getLast?_cons_of_ne_nil hs]
        by_cases hreturn : c = '\r' ∧ s.head? = some '\n'
        · -- The carriage return is lost, so that a newline stands in its place.
          rcases hreturn with ⟨rfl, hhead⟩
          rcases List.head?_eq_some_iff.1 hhead with ⟨rest, rfl⟩
          simp [terminated_newline]
        · have hprefix : ¬ ['\r', '\n'] <+: c :: s := by
            rintro ⟨rest, hrest⟩
            cases hrest
            exact hreturn ⟨rfl, rfl⟩
          rw [if_neg hreturn, List.cons.injEq, ih]
          simp [hs, hprefix]

/-- A text is put together as it was exactly if it has no line, or ends with a newline, is
    more than that newline, and has no newline after a carriage return. -/
theorem rejoined_eq_iff (t : List Char) :
    rejoined t = t ↔
      t = [] ∨ t ≠ ['\n'] ∧ t.getLast? = some '\n' ∧ ¬ ['\r', '\n'] <:+: t := by
  have hterminated : terminated t = ((charLines t).map withoutEnd).flatMap (· ++ ['\n']) := by
    rw [terminated, List.flatMap_map]
  by_cases hlone : (charLines t).map withoutEnd = [[]]
  · -- A single empty line is taken for no text. Only a newline could have stayed as it was.
    have hrejoined : rejoined t = [] := by
      rw [rejoined, hlone]
      rfl
    rw [hrejoined]
    constructor
    · intro h
      exact .inl h.symm
    · rintro (rfl | ⟨hne, hlast, hreturn⟩)
      · rfl
      · have hsame := (terminated_eq_iff t).2 ⟨.inr hlast, hreturn⟩
        rw [hterminated, hlone] at hsame
        exact absurd hsame.symm hne
  · have hrejoined : rejoined t = terminated t := by
      rw [rejoined, joinLines_eq, if_neg hlone, hterminated]
    have hne : t ≠ ['\n'] := by
      rintro rfl
      exact hlone rfl
    rw [hrejoined, terminated_eq_iff]
    by_cases ht : t = []
    · simp [ht]
    · simp [ht, hne]

end Wire

namespace Body

open Wire

/-- How a body is read. -/
def mode : Body → Mode
  | whole _ => .blocking
  | arriving _ _ _ => .streaming

theorem mode_ofChunks (mode : Mode) (chunks : List Bytes) : (ofChunks mode chunks).mode = mode := by
  cases mode <;> rfl

theorem mode_nextLine (b : Body) : b.nextLine.2.mode = b.mode := by
  unfold nextLine
  split
  · rfl
  · rfl
  · split
    · rfl
    · split
      · rfl
      · dsimp only
        split <;> rfl

/-- After the next line the other lines are left. -/
theorem lines_nextLine {b : Body} (hb : b.Unbroken) :
    b.nextLine.2.Unbroken ∧ lines b.nextLine.2.rest = (lines b.rest).tail := by
  by_cases hrest : b.rest = []
  · rcases nextLine_of_rest_nil hb hrest with ⟨after, hnext, hafter, hnil⟩
    rw [hnext, hnil, hrest, lines_nil]
    exact ⟨hafter, rfl⟩
  · rcases nextLine_of_rest_ne_nil hb hrest with ⟨after, hnext, hafter, hleft⟩
    rw [hnext, hleft, lines_of_ne_nil hrest]
    exact ⟨hafter, rfl⟩

/-- The lines that are left of a body are those of its bytes. -/
theorem remainingLines_eq {n : Nat} {b : Body} (hb : b.Unbroken) (hn : (lines b.rest).length < n) :
    b.remainingLines n = (lines b.rest).mapM readLine := by
  induction n generalizing b with
  | zero => omega
  | succ n ih =>
    by_cases hrest : b.rest = []
    · rcases nextLine_of_rest_nil hb hrest with ⟨after, hnext, -, -⟩
      simp only [remainingLines, hnext, hrest, lines_nil]
      rfl
    · rcases nextLine_of_rest_ne_nil hb hrest with ⟨after, hnext, hafter, hleft⟩
      rw [lines_of_ne_nil hrest, List.length_cons, ← hleft] at hn
      have hothers := ih hafter (by omega)
      simp only [remainingLines, hnext]
      rw [lines_of_ne_nil hrest, List.mapM_cons, ← hleft, ← hothers]
      cases readLine (cutLine b.rest).1 with
      | error e => rfl
      | ok line =>
        show (after.remainingLines n).map (line :: ·) = _
        cases after.remainingLines n with
        | error e => rfl
        | ok lines => rfl

/-- All that is left of a body as one text, if the bytes are those of a text. -/
theorem text_eq {b : Body} (hb : b.Unbroken) {t : List Char} (hrest : b.rest = encode t) :
    b.text = .ok (asRead b.mode t) := by
  cases b with
  | whole rest =>
    have hbytes : rest = encode t := hrest
    rw [text, hbytes, text?_encode]
    rfl
  | arriving buffer chunks broken =>
    have hlines : (lines (arriving buffer chunks broken).rest).length <
        (arriving buffer chunks broken).size + 1 := by
      rw [size_eq]
      exact Nat.lt_succ_of_le (length_lines_le _)
    have hread : ((charLines t).map encode).mapM readLine =
        .ok ((charLines t).map withoutEnd) := by
      rw [List.mapM_map]
      exact mapM_eq_pure fun line _ => readLine_encode line
    rw [text, remainingLines_eq hb hlines, hrest, lines_encode, hread]
    rfl

end Body

namespace Cursor

open Wire

/-- The part of an answer that a cursor at its first row has before it: all of the answer to a
    command, and all but the two lines of the header of the answer to a question. -/
def leftOf (s : Statement) (t : List Char) : List Char :=
  if s.returnsRows then ((charLines t).drop 2).flatten else t

variable {b : Body}

/-- A line that is missing is missing because there are none. -/
theorem rest_of_takeLine_none {statement : String} (hb : b.Unbroken)
    (h : (takeLine statement b).1 = .ok none) : b.rest = [] := by
  by_contra hrest
  rcases Body.nextLine_of_rest_ne_nil hb hrest with ⟨after, hnext, -, -⟩
  unfold takeLine at h
  rw [hnext] at h
  cases hline : Body.readLine (cutLine b.rest).1 with
  | error e =>
    rw [hline] at h
    cases h
  | ok line =>
    rw [hline] at h
    cases h

/-- Reading a header takes its lines from a body, as far as there are any. -/
theorem readHeader_left {statement : String} {header : Header} {after : Body}
    (hb : b.Unbroken) (h : readHeader statement b = .ok (header, after)) :
    after.Unbroken ∧ after.mode = b.mode ∧ lines after.rest = (lines b.rest).drop 2 := by
  rcases Body.lines_nextLine hb with ⟨hunbroken, hlines⟩
  have hmode := b.mode_nextLine
  rcases of_bind_eq_ok h with ⟨names, hnames, hnext⟩
  cases names with
  | none =>
    cases hnext
    refine ⟨hunbroken, hmode, ?_⟩
    rw [← List.drop_one] at hlines
    rw [rest_of_takeLine_none hb hnames, lines_nil] at hlines ⊢
    exact hlines
  | some names =>
    rcases Body.lines_nextLine hunbroken with ⟨hunbroken', hlines'⟩
    rcases of_bind_eq_ok hnext with ⟨types, htypes, hlast⟩
    cases types with
    | none => cases hlast
    | some types =>
      rcases of_bind_eq_ok hlast with ⟨header', hheader, hresult⟩
      cases hresult
      refine ⟨hunbroken', (Body.mode_nextLine _).trans hmode, ?_⟩
      rw [← List.tail_drop, List.drop_one, ← hlines, ← hlines']
      rfl

/-- A cursor that is opened has the part of the answer before it that is not in the header. -/
theorem start_left {s : Statement} {c : Cursor} (hb : b.Unbroken) {t : List Char}
    (hrest : b.rest = encode t) (h : start s b = .ok c) :
    c.body.Unbroken ∧ c.body.mode = b.mode ∧ c.body.rest = encode (leftOf s t) := by
  unfold start at h
  unfold leftOf
  cases hreturns : s.returnsRows with
  | false =>
    rw [hreturns] at h
    cases h
    exact ⟨hb, rfl, hrest⟩
  | true =>
    rw [hreturns] at h
    rcases of_bind_eq_ok h with ⟨⟨header, after⟩, hheader, hc⟩
    cases hc
    rcases readHeader_left hb hheader with ⟨hunbroken, hmode, hlines⟩
    refine ⟨hunbroken, hmode, ?_⟩
    dsimp only
    rw [← flatten_lines after.rest, hlines, hrest, lines_encode, ← List.map_drop, ← encode_flatten]
    rfl

/-- What a cursor gives as one text, if the bytes of the answer are those of a text. -/
theorem text_eq {s : Statement} {c : Cursor} (hb : b.Unbroken) {t : List Char}
    (hrest : b.rest = encode t) (h : start s b = .ok c) :
    c.text = .ok (asRead b.mode (leftOf s t)) := by
  rcases start_left hb hrest h with ⟨hunbroken, hmode, hleft⟩
  rw [text, Body.text_eq hunbroken hleft, hmode]
  rfl

/-- An answer that is a text is taken as it came by a reader that waits, and put together
    from its lines by one that does not, unless both refuse it, which they do for no command.
    The two texts are equal exactly if nothing is left, or what is left ends with a newline,
    is more than that newline, and has no newline after a carriage return. -/
theorem texts_of_start (s : Statement) {chunks : List Bytes} {t : List Char}
    (htext : text? chunks.flatten = some t) :
    (s.returnsRows = false → ∀ mode, ∃ c, start s (Body.ofChunks mode chunks) = .ok c) ∧
      Matched (fun c c' =>
          c.text = .ok (leftOf s t) ∧ c'.text = .ok (rejoined (leftOf s t)) ∧
            (c'.text = c.text ↔ leftOf s t = [] ∨ leftOf s t ≠ ['\n'] ∧
              (leftOf s t).getLast? = some '\n' ∧ ¬ ['\r', '\n'] <:+: leftOf s t))
        (start s (Body.ofChunks .blocking chunks)) (start s (Body.ofChunks .streaming chunks)) := by
  constructor
  · intro hcommand mode
    refine ⟨⟨none, Body.ofChunks mode chunks, s.text, true⟩, ?_⟩
    rw [start, hcommand]
    rfl
  · refine (InStep.start s (Body.inStep_ofChunks .blocking .streaming chunks)).imp ?_
    intro c c' hc hc' _
    have hrest (mode : Mode) : (Body.ofChunks mode chunks).rest = encode t := by
      rw [Body.rest_ofChunks]
      exact eq_encode_of_text? htext
    have hwhole := text_eq (Body.unbroken_ofChunks .blocking chunks) (hrest .blocking) hc
    have hlines := text_eq (Body.unbroken_ofChunks .streaming chunks) (hrest .streaming) hc'
    rw [Body.mode_ofChunks] at hwhole hlines
    refine ⟨hwhole, hlines, ?_⟩
    rw [hwhole, hlines, Except.ok.injEq]
    exact rejoined_eq_iff (leftOf s t)

/-- A carriage return is lost, and a newline is added. -/
theorem texts_of_two_lines :
    text? [encode ['a', '\r'], encode ['\n', 'b']].flatten = some ['a', '\r', '\n', 'b'] ∧
      ∃ c c', start (.command []) (Body.ofChunks .blocking [encode ['a', '\r'], encode ['\n', 'b']]) =
          .ok c ∧
        start (.command []) (Body.ofChunks .streaming [encode ['a', '\r'], encode ['\n', 'b']]) =
          .ok c' ∧
        c.text = .ok ['a', '\r', '\n', 'b'] ∧ c'.text = .ok ['a', '\n', 'b', '\n'] := by
  have htext : text? [encode ['a', '\r'], encode ['\n', 'b']].flatten =
      some ['a', '\r', '\n', 'b'] := text?_encode ['a', '\r', '\n', 'b']
  refine ⟨htext, ?_⟩
  have h := (texts_of_start (.command []) htext).2
  cases h with
  | ok h => exact ⟨_, _, rfl, rfl, h.1, h.2.1⟩

end Cursor

namespace Session

open Wire

/-- The answer to any text, taken as one text. -/
theorem raw_of_text (s : Session) (text : String) {chunks : List Bytes} {t : List Char}
    (htext : text? chunks.flatten = some t) (sent : List Order) (coming : List Response) :
    (s.raw text ⟨sent, .answer chunks :: coming⟩).1 = .ok (asRead s.mode t) := by
  have hrest : (Body.ofChunks s.mode chunks).rest = encode t := by
    rw [Body.rest_ofChunks]
    exact eq_encode_of_text? htext
  -- A command has no header, so that its cursor is opened with all of the answer before it.
  have hread := Cursor.text_eq (s := .command text.toList)
    (Body.unbroken_ofChunks s.mode chunks) hrest rfl
  rw [Body.mode_ofChunks] at hread
  show (Exchanging.result (Cursor.text _) _).1 = _
  rw [hread]
  rfl

/-- The version of a server is a line without an end. Only the reader that waits takes it as
    it came. -/
theorem version_ended :
    text? [encode "23.8.1.1".toList].flatten = some "23.8.1.1".toList ∧
      (raw ⟨.blocking, .usual⟩ "SELECT version()"
        ⟨[], [.answer [encode "23.8.1.1".toList]]⟩).1 = .ok "23.8.1.1".toList ∧
      (raw ⟨.streaming, .usual⟩ "SELECT version()"
        ⟨[], [.answer [encode "23.8.1.1".toList]]⟩).1 = .ok "23.8.1.1\n".toList := by
  have htext : text? [encode "23.8.1.1".toList].flatten = some "23.8.1.1".toList := by
    rw [List.flatten_singleton, text?_encode]
  exact ⟨htext, raw_of_text _ _ htext [] [], raw_of_text _ _ htext [] []⟩

end Session

end ColumnStore
