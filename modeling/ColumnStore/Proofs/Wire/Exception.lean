import ColumnStore.Proofs.Text.Reader
import ColumnStore.Proofs.Wire.Written

/-!
# Errors of the Server in a Response

A server that fails after its response has begun writes its error in place of the next
line: of the names, of the types, or of a row. A reader that comes to this line reports
the error, and does so before anything else it could say about the line.

There is one exception. The two lines of the header are looked at together, so an error
in place of the names waits for the line of types. Unless another line of text follows,
it is not reported: a response of this one line is refused as a header without types.

## Main definitions

* `ServerError`: A line that is an error of the server.
* `Displaces`: The error stands in place of the line after some others.
* `Cursor.Reports`: A failure is reported when a cursor is opened, or after some rows.

## Theorems

* `Wire.occursIn_iff`: Looking for a text in another.
* `ServerError.exceptionLine?_line`: Such a line is recognized.
* `ServerError.reported_iff`: When the error is reported.
* `Cursor.lone_error_refused`: A response that is nothing but an error.
-/

namespace ColumnStore

open Wire

namespace Wire

/-- One text is found in another exactly where it is a part of it. -/
theorem occursIn_iff (part s : List Char) : occursIn part s = true ↔ part <:+: s := by
  induction s with
  | nil => rw [occursIn, List.isEmpty_iff, List.infix_nil]
  | cons c s ih =>
    rw [occursIn, Bool.or_eq_true, ih, List.isPrefixOf_iff_prefix, List.infix_cons_iff]

theorem isAnyDigit_of_isDigit {c : Char} (h : c.isDigit = true) : Text.isAnyDigit c = true := by
  have hc := Number.toNat_of_isDigit h
  simp only [Text.isAnyDigit, Text.digitRanges, List.any_cons]
  rw [Bool.or_eq_true]
  left
  simp only [Bool.and_eq_true, decide_eq_true_eq]
  omega

/-- Digits are a code if their number is one. -/
theorem code?_of_isDigit {s : List Char} (hne : s ≠ []) (h : ∀ c ∈ s, c.isDigit = true)
    (hlt : Number.ofDigits s < UInt32.size) :
    code? s = some (UInt32.ofNat (Number.ofDigits s)) := by
  have hnatural : Number.natural? s = some (Number.ofDigits s) := by
    unfold Number.natural?
    split
    · -- A plus sign is no digit.
      exact absurd (h '+' List.mem_cons_self) (by decide)
    · exact Number.ofDigits?_of_isDigit hne h
  rw [code?, Number.naturalBelow?, hnatural, Option.filter_some, if_pos (by simpa using hlt),
    Option.map_some]

end Wire

/-- A line that is an error of the server: a code, a mark and a message that names an
    exception. -/
structure ServerError where
  /-- The digits of the code. -/
  digits : List Char
  /-- What stands between the code and the message. -/
  mark : Char
  /-- The message. -/
  rest : List Char
  /-- There is a code. -/
  digits_ne : digits ≠ []
  /-- It is written in decimal digits. -/
  isDigit : ∀ c ∈ digits, c.isDigit = true
  /-- It has 32 binary digits at most. -/
  digits_lt : Number.ofDigits digits < UInt32.size
  /-- The mark is a point or a comma. -/
  isMark : mark = '.' ∨ mark = ','
  /-- An exception is named. -/
  named : "DB::Exception".toList <:+: "Code: ".toList ++ (digits ++ mark :: ' ' :: rest)

namespace ServerError

/-- The line. -/
def line (e : ServerError) : List Char :=
  "Code: ".toList ++ (e.digits ++ e.mark :: ' ' :: e.rest)

/-- The code. -/
def code (e : ServerError) : UInt32 :=
  UInt32.ofNat (Number.ofDigits e.digits)

/-- The digits of the code are found at the start of the line. -/
theorem firstCode?_line (e : ServerError) : firstCode? e.line = some (e.digits, e.rest) := by
  have hstart : Text.Reader.exactly "Code: ".toList e.line =
      some ((), e.digits ++ e.mark :: ' ' :: e.rest) := Text.Reader.exactly_append _ _
  have hmark : Text.isAnyDigit e.mark = false := by
    rcases e.isMark with h | h <;> rw [h] <;> decide
  have hdigits : Text.Reader.while1 Text.isAnyDigit (e.digits ++ e.mark :: ' ' :: e.rest) =
      some (e.digits, e.mark :: ' ' :: e.rest) :=
    Text.Reader.while1_append e.digits_ne (fun c hc => isAnyDigit_of_isDigit (e.isDigit c hc))
      (by simpa using hmark)
  have hcode : codeAt e.line = some (e.digits, e.rest) := by
    have hlooks : (decide (e.mark = '.') || decide (e.mark = ',')) = true := by
      simpa using e.isMark
    simp only [codeAt, hstart, hdigits, bind, Option.bind, hlooks, if_true]
  have hcons : e.line = 'C' :: ("ode: ".toList ++ (e.digits ++ e.mark :: ' ' :: e.rest)) := rfl
  rw [hcons] at hcode ⊢
  rw [firstCode?, hcode]

/-- The line is recognized, whatever the message is. -/
theorem exceptionLine?_line (e : ServerError) (statement : String) :
    ∃ message, exceptionLine? statement e.line = some (.server e.code message statement) := by
  have hstarts : "Code: ".toList.isPrefixOf e.line = true := by
    rw [List.isPrefixOf_iff_prefix]
    exact List.prefix_append _ _
  have hnamed : occursIn "DB::Exception".toList e.line = true :=
    (occursIn_iff _ _).2 e.named
  have hcode : code? e.digits = some e.code := code?_of_isDigit e.digits_ne e.isDigit e.digits_lt
  simp only [exceptionLine?, hstarts, hnamed, Bool.and_self, if_true, readException,
    e.firstCode?_line, hcode, bind, Option.bind]
  exact ⟨_, rfl⟩

end ServerError

/-- A line stands in place of the one that would come after some others: of the names, of
    the types, or of a row, which it cannot be or cannot be told from. The lines before it
    are what they should be, and before it some rows are given unless the header is not
    complete. -/
inductive Displaces (statement : String) (line : List Char) :
    List (List Char) → Option (List Cells) → Prop
  /-- The names are missing. -/
  | names : Displaces statement line [] none
  /-- The types are missing. -/
  | types {nameLine : List Char} (hnames : exceptionLine? statement nameLine = none) :
      Displaces statement line [nameLine] none
  /-- A row is missing. -/
  | row {nameLine typeLine : List Char} {header : Header} {texts : List (List Char)}
      {rows : List Cells} (hheader : Header.read statement nameLine typeLine = .ok header)
      (hrows : List.Forall₂ (fun text cells => header.cells statement text = .ok cells) texts rows)
      (hline : (Text.readCells line).length ≠ header.width ∨ header.width = 1) :
      Displaces statement line (nameLine :: typeLine :: texts) (some rows)

/-- A cursor reports a failure: it is not opened because of it, or it gives some rows, the
    failure, and nothing more. -/
def Cursor.Reports (statement : String) (b : Body) (e : Failure) : Option (List Cells) → Prop
  | none => Cursor.start ⟨statement, true⟩ b = .error e
  | some rows => ∃ c, Cursor.start ⟨statement, true⟩ b = .ok c ∧
      Yields Cursor.next c (rows.map .ok ++ [.error e])

/-- A line that cannot be read is one whose bytes are no text. -/
theorem eq_of_error_mem_lineTexts {statement : String} {bytes : Bytes} {e : Failure}
    (h : .error e ∈ lineTexts statement bytes) : e = .transport .notText (some statement) := by
  rcases List.mem_map.1 h with ⟨line, -, hline⟩
  rw [Body.readLine] at hline
  cases hread : lineText? line with
  | some text =>
    rw [hread] at hline
    cases hline
  | none =>
    rw [hread] at hline
    exact (Except.error.inj hline).symm

namespace ServerError

variable {statement : String} {chunks : List Bytes} {after : List (Except Failure (List Char))}

/-- In place of a row the error is reported after the rows before it. -/
theorem reports_row (e : ServerError) {nameLine typeLine : List Char} {header : Header}
    {texts : List (List Char)} {rows : List Cells} {failure : Failure}
    (hfailure : exceptionLine? statement e.line = some failure)
    (hheader : Header.read statement nameLine typeLine = .ok header)
    (hrows : List.Forall₂ (fun text cells => header.cells statement text = .ok cells) texts rows)
    (hline : (Text.readCells e.line).length ≠ header.width ∨ header.width = 1)
    (hlines : lineTexts statement chunks.flatten =
      (nameLine :: typeLine :: texts).map .ok ++ .ok e.line :: after) (mode : Mode) :
    Cursor.Reports statement (Body.ofChunks mode chunks) failure (some rows) := by
  have hlast : rowsOf statement header (.ok e.line :: after) = [.error failure] := by
    rw [rowsOf_cons, Except.bind, Header.cells_of_exception hfailure hline]
  have hread : Answer.read statement chunks.flatten =
      .ok ⟨statement, header, rows.map .ok ++ [.error failure]⟩ := by
    rw [Answer.read, hlines, List.map_cons, List.map_cons, List.cons_append, List.cons_append,
      Answer.ofTexts_two, hheader, Except.map, rowsOf_append hrows, hlast]
  rcases Cursor.opens_of_read mode hread with ⟨c, hstart, -, hyields⟩
  exact ⟨c, hstart, hyields⟩

/-- In place of the types the error is reported at once. -/
theorem reports_types (e : ServerError) {nameLine : List Char} {failure : Failure}
    (hfailure : exceptionLine? statement e.line = some failure)
    (hnames : exceptionLine? statement nameLine = none)
    (hlines : lineTexts statement chunks.flatten = [nameLine].map .ok ++ .ok e.line :: after)
    (mode : Mode) : Cursor.Reports statement (Body.ofChunks mode chunks) failure none := by
  refine Cursor.refused_of_read mode ?_
  rw [Answer.read, hlines, List.map_singleton, List.singleton_append, Answer.ofTexts_two,
    Header.read_of_typeException hnames hfailure, Except.map]

/-- In place of the names the error is reported if another line of text follows. -/
theorem reports_names (e : ServerError) {failure : Failure} {next : List Char}
    (hfailure : exceptionLine? statement e.line = some failure)
    (hlines : lineTexts statement chunks.flatten = .ok e.line :: .ok next :: after) (mode : Mode) :
    Cursor.Reports statement (Body.ofChunks mode chunks) failure none := by
  refine Cursor.refused_of_read mode ?_
  rw [Answer.read, hlines, Answer.ofTexts_two, Header.read_of_exception hfailure, Except.map]

/-- In place of the names, what follows the error is missed or read first, and if it is no
    line of text, that is what is reported. -/
theorem refused_names (e : ServerError)
    (hlines : lineTexts statement chunks.flatten = .ok e.line :: after)
    (hafter : ∀ next rest, after ≠ .ok next :: rest) (mode : Mode) :
    Cursor.start ⟨statement, true⟩ (Body.ofChunks mode chunks) =
        .error (.decode "<header>" none .noTypes (some statement)) ∨
      Cursor.start ⟨statement, true⟩ (Body.ofChunks mode chunks) =
        .error (.transport .notText (some statement)) := by
  cases after with
  | nil =>
    refine Or.inl (Cursor.refused_of_read mode ?_)
    rw [Answer.read, hlines]
    rfl
  | cons next rest =>
    cases next with
    | ok next => exact absurd rfl (hafter next rest)
    | error failure =>
      have hfailure : failure = .transport .notText (some statement) := by
        apply eq_of_error_mem_lineTexts
        rw [hlines]
        exact List.mem_cons_of_mem _ List.mem_cons_self
      refine Or.inr (Cursor.refused_of_read mode ?_)
      rw [Answer.read, hlines, ← hfailure]
      rfl

/-- An error of the server is reported with its code and the statement, where its line is
    reached, except when it stands in place of the names and no line of text follows. -/
theorem reported_iff (e : ServerError) {before : List (List Char)} {given : Option (List Cells)}
    (hplace : Displaces statement e.line before given)
    (hlines : lineTexts statement chunks.flatten = before.map .ok ++ .ok e.line :: after)
    (mode : Mode) :
    (∃ message, Cursor.Reports statement (Body.ofChunks mode chunks)
        (.server e.code message statement) given) ↔
      (before = [] → ∃ next rest, after = .ok next :: rest) := by
  rcases e.exceptionLine?_line statement with ⟨message, hfailure⟩
  cases hplace with
  | names =>
    constructor
    · rintro ⟨message, hreports⟩ -
      by_contra hafter
      push Not at hafter
      -- What is reported in this case is no error of the server.
      rcases e.refused_names hlines hafter mode with hstart | hstart
      · rw [Cursor.Reports, hstart] at hreports
        cases hreports
      · rw [Cursor.Reports, hstart] at hreports
        cases hreports
    · intro hafter
      rcases hafter rfl with ⟨next, rest, rfl⟩
      exact ⟨message, e.reports_names hfailure hlines mode⟩
  | types hnames =>
    constructor
    · rintro - hnil
      cases hnil
    · intro _
      exact ⟨message, e.reports_types hfailure hnames hlines mode⟩
  | row hheader hrows hline =>
    constructor
    · rintro - hnil
      cases hnil
    · intro _
      exact ⟨message, e.reports_row hfailure hheader hrows hline hlines mode⟩

/-- An error in the middle of a result of two columns. -/
def memoryLimit : ServerError where
  digits := "241".toList
  mark := '.'
  rest := "DB::Exception: Memory limit exceeded".toList
  digits_ne := by decide
  isDigit := List.all_eq_true.1 rfl
  digits_lt := by decide
  isMark := .inl rfl
  named := ⟨"Code: 241. ".toList, ": Memory limit exceeded".toList, rfl⟩

/-- Its response, in two chunks and without an end of the last line. -/
def memoryLimitResponse : List Bytes :=
  [encode "a\tb\nUInt8\tString\n1\tx\nCode: 241. DB::Exc".toList,
    encode "eption: Memory limit exceeded\n2\ty".toList]

theorem memoryLimit_reported :
    ∃ message, Cursor.Reports "SELECT a, b FROM t" (Body.ofChunks .blocking memoryLimitResponse)
      (.server 241 message "SELECT a, b FROM t") (some [[some "1".toList, some "x".toList]]) := by
  have hwrites : Writes (["a\tb".toList, "UInt8\tString".toList, "1\tx".toList, memoryLimit.line] ++
      ["2\ty".toList]) memoryLimitResponse.flatten := Or.inr ⟨_, _, rfl, by decide, rfl⟩
  have hlines := lineTexts_of_writes "SELECT a, b FROM t" (by decide) hwrites
  exact (memoryLimit.reported_iff (.row rfl (.cons rfl .nil) (by decide)) hlines .blocking).2
    (by intro h; cases h)

end ServerError

/-- An error that is all there is of a response. -/
def ServerError.syntaxError : ServerError where
  digits := "62".toList
  mark := '.'
  rest := "DB::Exception: Syntax error".toList
  digits_ne := by decide
  isDigit := List.all_eq_true.1 rfl
  digits_lt := by decide
  isMark := .inl rfl
  named := ⟨"Code: 62. ".toList, ": Syntax error".toList, rfl⟩

/-- A response that is nothing but an error of the server is refused as a header without
    types, however it is read. -/
theorem Cursor.lone_error_refused :
    Cursor.start ⟨"SELECT 1", true⟩
        (Body.ofChunks .blocking [ended ServerError.syntaxError.line]) =
        .error (.decode "<header>" none .noTypes (some "SELECT 1")) ∧
      Cursor.start ⟨"SELECT 1", true⟩
        (Body.ofChunks .streaming [ended ServerError.syntaxError.line]) =
        .error (.decode "<header>" none .noTypes (some "SELECT 1")) := by
  have hwrites : Writes [ServerError.syntaxError.line]
      [ended ServerError.syntaxError.line].flatten := Or.inl rfl
  have hlines := lineTexts_of_writes "SELECT 1" (by decide) hwrites
  have hread : Answer.read "SELECT 1" [ended ServerError.syntaxError.line].flatten =
      .error (.decode "<header>" none .noTypes (some "SELECT 1")) := by
    rw [Answer.read, hlines]
    rfl
  exact ⟨Cursor.refused_of_read .blocking hread, Cursor.refused_of_read .streaming hread⟩

end ColumnStore
