import ColumnStore.Proofs.ColumnType.Nesting
import ColumnStore.Proofs.Literal.Extent
import Mathlib.Logic.Function.Iterate

/-!
# Reading as Tasks

Reading a value of a composite type is a recursion of three functions: one for the text of
a cell, one for a text in literal notation, and one for a literal. They call each other back
and forth, since a scalar in place of a composite literal is read as a text again. The library
takes all quotes off in one go, so that its functions go down the type and nothing else; what
is lost by that is how long the reading takes, and whether it ends.

Here the recursion is taken apart. A task is one call, its plan says which other calls it makes
and what becomes of their values, and the library's answers follow the plans. Carried out one
call after the other, the plans are a machine with a stack of calls that wait for others.

## Main definitions

* `Task`, `Task.answer`: A call, and what the library answers.
* `Plan`, `Task.plan`: How a call is answered by others.
* `Stage`, `Stage.step`: The machine that carries out the plans.
* `Stage.unquotings`: How often quotes are taken off on the way.

## Theorems

* `ColumnType.decodeAs_scalar_of_isComposite`: A scalar in place of a composite value.
* `Task.answer_eq`: The answers of the library follow the plans.
* `Stage.answering_unique`: The machine comes to one answer at most.
-/

namespace ColumnStore

open ColumnType (decodeAs decodeElements decodeTextAs)

/-- A value to be read. -/
inductive Task
  /-- From the text of a cell. -/
  | text (t : ColumnType) (s : List Char)
  /-- From a text in literal notation. -/
  | sql (t : ColumnType) (s : List Char)
  /-- From a literal. -/
  | literal (t : ColumnType) (l : Literal)

/-- How a task is done. -/
inductive Plan
  /-- At once. -/
  | done (r : Except CodecError Value)
  /-- As another task is. -/
  | next (k : Task)
  /-- By other tasks in turn, up to the first that is refused, and by putting their values
      together. -/
  | each (ks : List Task) (build : List Value → Value)

/-- Items two by two. -/
def inPairs {α : Type} : List α → List (α × α)
  | x :: y :: r => (x, y) :: inPairs r
  | _ => []

namespace Task

/-- The type of the value. -/
def type : Task → ColumnType
  | text t _ => t
  | sql t _ => t
  | literal t _ => t

/-- The value that the library reads. -/
def answer : Task → Except CodecError Value
  | text t s => t.decodeText s
  | sql t s => t.decodeSql s
  | literal t l => t.decodeLiteral l

/-- The plan of a task. What only says how a column is stored makes no difference but for
    messages. -/
def plan : Task → Plan
  | text t s =>
    match t.stripped with
    | .nullable u => .next (text u s)
    | .array _ => .next (sql t s)
    | .tuple _ => .next (sql t s)
    | .map _ _ => .next (sql t s)
    | u => .done (u.decodeScalar s)
  | sql t s =>
    match Literal.read s with
    | .ok l => .next (literal t l)
    | .error e => .done (.error (.literal e))
  | literal t l =>
    match t.stripped, l with
    | .nullable _, .null => .done (.ok .null)
    | .nullable u, l => .next (literal u l)
    | _, .null => .done (.error (.unexpectedNull t))
    | .array u, .list items => .each (items.map (literal u)) .array
    | .tuple ts, .list items =>
      if ts.length = items.length then
        .each ((ts.zip items).map fun p => literal p.1.2 p.2) .tuple
      else .done (.error (.elementCount t ts.length items.length))
    | .map k x, .map entries =>
      .each (entries.flatMap fun e => [literal k e.1, literal x e.2]) fun vs => .map (inPairs vs)
    -- A scalar in place of a composite literal is a text again.
    | .array u, .scalar s => .next (text (.array u) s.toList)
    | .tuple ts, .scalar s => .next (text (.tuple ts) s.toList)
    | .map k x, .scalar s => .next (text (.map k x) s.toList)
    | u, .scalar s => .done (u.decodeScalar s.toList)
    | _, l => .done (.error (.misshapen l t))

end Task

namespace Plan

/-- The value that a plan gives with the answers of the library. -/
def answer : Plan → Except CodecError Value
  | done r => r
  | next k => k.answer
  | each ks build => (ks.mapM Task.answer).map build

/-- The tasks that a plan asks for. -/
def asks : Plan → List Task
  | done _ => []
  | next k => [k]
  | each ks _ => ks

end Plan

/-! ## The plans of the library -/

namespace ColumnType

variable {t u : ColumnType}

theorem stripped_ne_lowCardinality (t u : ColumnType) : t.stripped ≠ lowCardinality u := by
  induction t using mem_induction with
  | scalar t ht =>
    cases t with
    | lowCardinality => cases ht
    | _ => exact nofun
  | lowCardinality t ih => exact ih
  | _ => exact nofun

theorem decodeTextAs_stripped (outer t : ColumnType) (s : List Char) :
    decodeTextAs outer t.stripped s = decodeTextAs outer t s := by
  induction t using mem_induction with
  | scalar t ht =>
    cases t with
    | lowCardinality => cases ht
    | _ => rfl
  | lowCardinality t ih => exact ih
  | _ => rfl

theorem decodeElements_eq_mapM (ts : List (Option String × ColumnType)) (items : List Literal) :
    decodeElements ts items = (ts.zip items).mapM fun p => decodeAs p.1.2 p.1.2 p.2 := by
  induction ts generalizing items with
  | nil => rfl
  | cons t ts ih =>
    cases items with
    | nil => rfl
    | cons l items => rw [decodeElements, ih, List.zip_cons_cons, List.mapM_cons]

/-- Taking the quotes off a scalar is reading its text and taking the quotes off that. -/
theorem opened_scalar (outer self : ColumnType) (s : String) :
    opened outer self (.scalar s) =
      match Literal.read s.toList with
      | .ok l => opened self self l
      | .error e => .error (.literal e) := by
  rw [opened]
  cases hread : Literal.read s.toList with
  | error e => rw [Literal.unquote, hread]
  | ok l =>
    cases l with
    | scalar t =>
      rw [Literal.unquote_of_read_scalar hread]
      rfl
    | _ =>
      rw [Literal.unquote, hread]
      rfl

/-- A scalar in place of a composite literal is a text again. -/
theorem decodeAs_scalar_of_isComposite (ht : u.IsComposite) (t : ColumnType) (s : String) :
    decodeAs t u (.scalar s) = u.decodeText s.toList := by
  cases u with
  | array | tuple | map =>
    rw [decodeAs, opened_scalar]
    show _ = decodeSql _ s.toList
    unfold decodeSql
    cases Literal.read s.toList with
    | error e => rfl
    | ok l =>
      show _ = decodeAs _ _ l
      rw [decodeAs]
  | _ => cases ht

end ColumnType

/-- Two results for each item are the results for twice as many. -/
theorem mapM_inPairs {ε α β γ : Type} (f : β → Except ε γ) (g h : α → β) (xs : List α) :
    (xs.mapM fun x => do pure (← f (g x), ← f (h x))) =
      ((xs.flatMap fun x => [g x, h x]).mapM f).map inPairs := by
  induction xs with
  | nil => rfl
  | cons x xs ih =>
    rw [List.mapM_cons, ih, List.flatMap_cons, List.cons_append, List.cons_append, List.nil_append,
      List.mapM_cons, List.mapM_cons]
    cases f (g x) with
    | error e => rfl
    | ok a =>
      cases f (h x) with
      | error e => rfl
      | ok b =>
        cases (xs.flatMap fun x => [g x, h x]).mapM f with
        | error e => rfl
        | ok cs => rfl

namespace Task

open ColumnType

/-- The answers of the library follow the plans. -/
theorem answer_eq (k : Task) : k.answer = k.plan.answer := by
  cases k with
  | text t s =>
    show decodeTextAs t t s = _
    rw [← decodeTextAs_stripped, plan]
    cases h : t.stripped with
    | lowCardinality u => exact absurd h (stripped_ne_lowCardinality t u)
    | _ => rfl
  | sql t s =>
    show t.decodeSql s = _
    rw [plan, decodeSql]
    cases Literal.read s with
    | ok l => rfl
    | error e => rfl
  | literal t l =>
    show decodeAs t t l = _
    rw [← decodeAs_stripped]
    unfold plan
    dsimp only
    cases h : t.stripped with
    | lowCardinality u => exact absurd h (stripped_ne_lowCardinality t u)
    | nullable u =>
      cases l with
      | null => rfl
      | _ => rfl
    | array u =>
      cases l with
      | list items =>
        show (items.mapM (decodeAs u u)).map Value.array =
          ((items.map (literal u)).mapM answer).map _
        rw [List.mapM_map]
        rfl
      | scalar s => exact decodeAs_scalar_of_isComposite (u := array u) trivial t s
      | _ => rfl
    | tuple ts =>
      cases l with
      | list items =>
        show (if ts.length = items.length then (decodeElements ts items).map Value.tuple
          else .error (.elementCount t ts.length items.length)) = Plan.answer (if _ then _ else _)
        rw [decodeElements_eq_mapM]
        by_cases hlength : ts.length = items.length
        · rw [if_pos hlength, if_pos hlength, Plan.answer, List.mapM_map]
          rfl
        · rw [if_neg hlength, if_neg hlength, Plan.answer]
      | scalar s => exact decodeAs_scalar_of_isComposite (u := tuple ts) trivial t s
      | _ => rfl
    | map k x =>
      cases l with
      | map entries =>
        show (entries.mapM fun e => (do pure (← decodeAs k k e.1, ← decodeAs x x e.2) :
          Except CodecError (Value × Value))).map Value.map = _
        have hpairs := mapM_inPairs answer (fun e : Literal × Literal => literal k e.1)
          (fun e => literal x e.2) entries
        refine (congrArg (Except.map Value.map) hpairs).trans ?_
        show _ = Except.map _ (List.mapM answer _)
        cases (entries.flatMap fun e => [literal k e.1, literal x e.2]).mapM answer with
        | error e => rfl
        | ok vs => rfl
      | scalar s => exact decodeAs_scalar_of_isComposite (u := map k x) trivial t s
      | _ => rfl
    | _ =>
      cases l with
      | _ => rfl

end Task

/-! ## Carrying out plans -/

/-- The quotes that are taken off when a task is begun: a scalar that was found becomes a text. -/
def Task.unquotes (k : Task) : Nat :=
  match k, k.plan with
  | literal _ _, .next (text _ _) => 1
  | _, _ => 0

/-- A task that waits for others. -/
structure Frame where
  /-- The values that were found. -/
  found : List Value
  /-- The tasks that are left after the one under way. -/
  rest : List Task
  /-- What becomes of the values. -/
  build : List Value → Value

/-- How far the reading of a value has come. The tasks that wait are listed from the inside
    out. -/
inductive Stage
  /-- A task is to be done. -/
  | asking (k : Task) (waiting : List Frame)
  /-- A task is done. -/
  | answering (r : Except CodecError Value) (waiting : List Frame)

/-- A task that waits goes on. -/
def Frame.resume (waiting : List Frame) : Frame → Stage
  | ⟨found, [], build⟩ => .answering (.ok (build found)) waiting
  | ⟨found, k :: rest, build⟩ => .asking k (⟨found, rest, build⟩ :: waiting)

/-- A task is begun. -/
def Plan.start (waiting : List Frame) : Plan → Stage
  | done r => .answering r waiting
  | next k => .asking k waiting
  | each ks build => Frame.resume waiting ⟨[], ks, build⟩

namespace Stage

/-- One step. An answer that no task waits for stays. -/
def step : Stage → Stage
  | asking k waiting => k.plan.start waiting
  | answering r [] => answering r []
  | answering (.ok v) (f :: waiting) => Frame.resume waiting { f with found := f.found ++ [v] }
  | answering (.error e) (_ :: waiting) => answering (.error e) waiting

/-- The quotes that are taken off in the next step. -/
def unquotes : Stage → Nat
  | asking k _ => k.unquotes
  | answering _ _ => 0

/-- The quotes that are taken off in a number of steps. -/
def unquotings : Nat → Stage → Nat
  | 0, _ => 0
  | n + 1, g => g.unquotes + unquotings n g.step

variable {k : Task} {waiting : List Frame} {g : Stage}

theorem unquotings_add (m n : Nat) (g : Stage) :
    unquotings (m + n) g = unquotings m g + unquotings n (step^[m] g) := by
  induction m generalizing g with
  | zero => rw [Nat.zero_add, unquotings, Nat.zero_add, Function.iterate_zero_apply]
  | succ m ih =>
    rw [Nat.succ_add, unquotings, ih, unquotings, Nat.add_assoc, Function.iterate_succ_apply]

/-- An answer that no task waits for is the last stage. -/
theorem iterate_answering (n : Nat) (r : Except CodecError Value) :
    step^[n] (answering r []) = answering r [] :=
  Function.iterate_fixed rfl n

theorem unquotings_answering (n : Nat) (r : Except CodecError Value) :
    unquotings n (answering r []) = 0 := by
  induction n with
  | zero => rfl
  | succ n ih => rw [unquotings, unquotes, step, ih]

/-- Two answers that no task waits for are the same, and so are the quotes that were taken off
    before them. -/
theorem answering_unique {m n : Nat} {r r' : Except CodecError Value}
    (hm : step^[m] g = answering r []) (hn : step^[n] g = answering r' []) :
    r = r' ∧ unquotings m g = unquotings n g := by
  have hlast : step^[m + n] g = answering r [] := by
    rw [Nat.add_comm, Function.iterate_add_apply, hm, iterate_answering]
  have hlast' : step^[m + n] g = answering r' [] := by
    rw [Function.iterate_add_apply, hn, iterate_answering]
  constructor
  · cases hlast.symm.trans hlast'
    rfl
  · calc unquotings m g
      _ = unquotings (m + n) g := by rw [unquotings_add, hm, unquotings_answering, Nat.add_zero]
      _ = unquotings (n + m) g := by rw [Nat.add_comm]
      _ = unquotings n g := by rw [unquotings_add, hn, unquotings_answering, Nat.add_zero]

end Stage

end ColumnStore
