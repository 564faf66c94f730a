import ColumnStore.Proofs.Text.Reader
import ColumnStore.Query.Statement

/-!
# Slices of Slices

What windows do to rows. A window is made of counts of 64 binary digits, and slicing adds
and subtracts them, so it is not plain that a slice of a slice is what it would be on the
rows themselves. Here it is: as long as there are fewer rows than counts, a query that was
limited and sliced any number of times returns what is left of the rows if they are limited
and sliced as often.

The ends of a slice are positions, and these are not counts. The row next to the greatest
count has no count, so that a slice may start where no count reaches. It is taken to start
at the greatest count. As no row is there, this does not change the rows, but it does change
what is refused: one slice that ends before it starts is let through, and is empty.

## Main definitions

* `Bound.first`, `Bound.past`: The positions at the ends of a slice.
* `Window.endsBeforeStart`, `Window.isRefused`: Slices that end before they start, and those
  that are refused.
* `Window.between`: The rows between two positions.
* `Query.Cut`, `Query.cut`: A call that changes the window, and the query after it.
* `Query.Cut.rows`: What such a call does to rows.
* `Window.readClause`: What the clause of a window says.

## Theorems

* `Window.rows_narrow`: Narrowing a window takes rows between positions of its rows.
* `Query.slice_eq`: Which slices are refused.
* `Window.readClause_windowClause`: The clause says what the window says.
* `Query.rows_of_cuts`: Limiting and slicing a query limits and slices its rows.
* `Query.slice_after_greatest`: The slice that is let through.
-/

namespace ColumnStore

/-- A sum of counts is the sum, or the greatest count if that is less. -/
theorem toNat_addCount (a b : UInt64) :
    (addCount a b).toNat = min (a.toNat + b.toNat) (UInt64.size - 1) := by
  unfold addCount
  by_cases h : a.toNat + b.toNat < UInt64.size
  · rw [if_pos h, UInt64.toNat_add, Nat.mod_eq_of_lt h]
    omega
  · rw [if_neg h, UInt64.toNat_ofNat_of_lt' (by decide)]
    omega

theorem toNat_subCount (a b : UInt64) : (subCount a b).toNat = a.toNat - b.toNat := by
  unfold subCount
  by_cases h : b ≤ a
  · rw [if_pos h, UInt64.toNat_sub_of_le a b h]
  · rw [if_neg h]
    rw [UInt64.le_iff_toNat_le] at h
    have hzero : (0 : UInt64).toNat = 0 := rfl
    omega

theorem toNat_minCount (a b : UInt64) : (min a b).toNat = min a.toNat b.toNat := by
  by_cases h : a ≤ b
  · rw [UInt64.le_iff_toNat_le] at h
    rw [show min a b = a from if_pos (UInt64.le_iff_toNat_le.2 h)]
    omega
  · have hnot := h
    rw [UInt64.le_iff_toNat_le] at h
    rw [show min a b = b from if_neg hnot]
    omega

namespace Bound

/-- The position of the first row of a slice. -/
def first : Bound → Nat
  | unbounded => 0
  | included n => n.toNat
  | excluded n => n.toNat + 1

/-- The position after the last row of a slice, if it ends. -/
def past : Bound → Option Nat
  | unbounded => none
  | included n => some (n.toNat + 1)
  | excluded n => some n.toNat

/-- A slice starts at its first row, or at the greatest count if that is before it. -/
theorem toNat_start (b : Bound) : b.start.toNat = min b.first (UInt64.size - 1) := by
  cases b with
  | unbounded => rfl
  | included n =>
    have hn := n.toNat_lt
    simp only [start, first, UInt64.size]
    omega
  | excluded n => exact toNat_addCount n 1

/-- A slice stops after its last row, or at the greatest count if that is before it. -/
theorem map_toNat_stop (b : Bound) :
    b.stop.map UInt64.toNat = b.past.map (min · (UInt64.size - 1)) := by
  cases b with
  | unbounded => rfl
  | included n => exact congrArg some (toNat_addCount n 1)
  | excluded n =>
    have hn := n.toNat_lt
    simp only [stop, past, Option.map_some, Option.some.injEq, UInt64.size]
    omega

end Bound

namespace Window

variable {α : Type}

/-- The rows from a position on, up to another one if it is given. -/
def between (first : Nat) (past : Option Nat) (rows : List α) : List α :=
  match past with
  | none => rows.drop first
  | some n => (rows.take n).drop first

/-- Positions that no row has may be replaced by any other such position. -/
theorem between_min {rows : List α} {k : Nat} (h : rows.length ≤ k) (first : Nat)
    (past : Option Nat) : between (min first k) (past.map (min · k)) rows =
      between first past rows := by
  have hdrop (xs : List α) (hxs : xs.length ≤ k) : xs.drop (min first k) = xs.drop first := by
    by_cases hle : first ≤ k
    · rw [Nat.min_eq_left hle]
    · rw [List.drop_eq_nil_of_le (by omega), List.drop_eq_nil_of_le (by omega)]
  cases past with
  | none => exact hdrop rows h
  | some n =>
    have htake : rows.take (min n k) = rows.take n := by
      by_cases hle : n ≤ k
      · rw [Nat.min_eq_left hle]
      · rw [List.take_of_length_le (by omega), List.take_of_length_le (by omega)]
    simp only [between, Option.map_some, htake]
    refine hdrop _ ?_
    rw [List.length_take]
    omega

/-- Narrowing a window takes rows between positions of its rows. Where the sum of the rows
    before the window and before the slice is no count, there must be no rows left. -/
theorem rows_narrow (w : Window) (start : UInt64) (stop : Option UInt64) {all : List α}
    (h : all.length < UInt64.size ∨ w.offset.toNat + start.toNat < UInt64.size) :
    (w.narrow start stop).rows all =
      between start.toNat (stop.map UInt64.toNat) (w.rows all) := by
  have hoffset : all.drop (addCount w.offset start).toNat =
      (all.drop w.offset.toNat).drop start.toNat := by
    rw [toNat_addCount, List.drop_drop]
    by_cases hle : w.offset.toNat + start.toNat ≤ UInt64.size - 1
    · rw [Nat.min_eq_left hle]
    · rw [List.drop_eq_nil_of_le (by omega), List.drop_eq_nil_of_le (by omega)]
  unfold rows narrow between
  simp only [hoffset]
  -- A window with and without a limit, and a slice with and without an end.
  cases w.limit with
  | none =>
    cases stop with
    | none => rfl
    | some stop =>
      simp only [Option.map_some, toNat_subCount, List.drop_take]
  | some limit =>
    cases stop with
    | none => simp only [Option.map_none, toNat_subCount, List.drop_take]
    | some stop =>
      simp only [Option.map_some, toNat_subCount, toNat_minCount, List.drop_take,
        List.take_take]

/-- A slice ends before it starts. -/
def endsBeforeStart (lower upper : Bound) : Bool :=
  upper.past.any fun n => n < lower.first

/-- A slice is refused. One that ends before it starts is let through: the one from the row
    next to the greatest count up to that of the greatest count. -/
def isRefused (lower upper : Bound) : Bool :=
  endsBeforeStart lower upper &&
    !(lower.first = UInt64.size && upper.past = some (UInt64.size - 1))

/-- The ends of a slice are compared as counts. -/
theorem slice_eq (w : Window) (lower upper : Bound) :
    w.slice lower upper =
      if isRefused lower upper then .error (.reversedSlice lower.start (upper.stop.getD 0))
      else .ok (w.narrow lower.start upper.stop) := by
  have hstart := lower.toNat_start
  have hstop := upper.map_toNat_stop
  have hfirst : lower.first ≤ UInt64.size := by
    cases lower with
    | unbounded => decide
    | included n =>
      have hn := n.toNat_lt
      simp only [Bound.first, UInt64.size]
      omega
    | excluded n =>
      have hn := n.toNat_lt
      simp only [Bound.first, UInt64.size]
      omega
  unfold slice isRefused endsBeforeStart
  cases hs : upper.stop with
  | none =>
    rw [hs] at hstop
    rw [Option.map_eq_none_iff.1 hstop.symm]
    rfl
  | some stop =>
    rw [hs] at hstop
    rcases Option.map_eq_some_iff.1 hstop.symm with ⟨n, hpast, hn⟩
    have hlt : stop < lower.start ↔ n < lower.first ∧
        ¬ (lower.first = UInt64.size ∧ n = UInt64.size - 1) := by
      rw [UInt64.lt_iff_toNat_lt, ← hn, hstart]
      have hsize : 0 < UInt64.size := by decide
      omega
    simp only [hpast, Option.any_some, Option.some.injEq, Option.getD_some]
    have hrefused : (decide (n < lower.first) &&
        !(decide (lower.first = UInt64.size) && decide (n = UInt64.size - 1))) = true ↔
          stop < lower.start := by
      rw [hlt]
      simp only [Bool.and_eq_true, Bool.not_eq_true', Bool.and_eq_false_iff, decide_eq_true_eq,
        decide_eq_false_iff_not, not_and_or]
    by_cases h : stop < lower.start
    · rw [if_pos h, if_pos (hrefused.2 h)]
    · rw [if_neg h, if_neg (fun hyes => h (hrefused.1 hyes))]

/-! ## The clause -/

/-- The number at the front of a text. -/
def readCount : Text.Reader Nat := fun s => do
  let (ds, r) ← Text.Reader.while1 Char.isDigit s
  pure (Number.ofDigits ds, r)

theorem readCount_digits (n : Nat) {r : List Char} (hr : ∀ c ∈ r.head?, c.isDigit = false) :
    readCount (Number.digits n ++ r) = some (n, r) := by
  have hread := Text.Reader.while1_append (Number.digits_ne_nil n)
    (fun c hc => Number.isDigit_of_mem_digits hc) hr
  simp only [readCount, hread, Option.bind_eq_bind, Option.bind_some, Number.ofDigits_digits]
  rfl

/-- What the clause of a window says: how many rows are returned at most, if it says so, and
    how many are left out before them. No clause leaves out none. -/
def readClause (s : List Char) : Option (Option Nat × Nat) :=
  if s.isEmpty then some (none, 0)
  else do
    let (_, r) ← Text.Reader.exactly " LIMIT ".toList s
    let (limit, r) ← readCount r
    if r.isEmpty then some (some limit, 0)
    else do
      let (_, r) ← Text.Reader.exactly " OFFSET ".toList r
      let offset ← Text.Reader.all readCount r
      pure (some limit, offset)

/-- The clause of a window says what the window says. If rows are left out, the clause has to
    have a limit, and then it is the greatest count where the window has none. -/
theorem readClause_windowClause (w : Window) :
    readClause (Query.windowClause w) =
      some (if w.limit = none ∧ w.offset ≠ 0 then some (UInt64.size - 1)
        else w.limit.map UInt64.toNat, w.offset.toNat) := by
  have hlimit (n : Nat) : readClause (" LIMIT ".toList ++ Number.digits n) = some (some n, 0) := by
    have hread := readCount_digits n (r := []) (by simp)
    rw [List.append_nil] at hread
    rw [readClause, if_neg (by simp), Text.Reader.exactly_append]
    simp only [Option.bind_eq_bind, Option.bind_some, hread]
    rfl
  have hboth (n m : Nat) : readClause (" LIMIT ".toList ++ Number.digits n ++ " OFFSET ".toList ++
      Number.digits m) = some (some n, m) := by
    have hread := readCount_digits n (r := " OFFSET ".toList ++ Number.digits m)
      (by intro c hc; cases hc; rfl)
    have hrest := readCount_digits m (r := []) (by simp)
    rw [List.append_nil] at hrest
    rw [List.append_assoc, List.append_assoc, readClause, if_neg (by simp),
      Text.Reader.exactly_append]
    simp only [Option.bind_eq_bind, Option.bind_some, hread]
    rw [if_neg (by simp), Text.Reader.exactly_append]
    simp only [Option.bind_some, Text.Reader.all, hrest]
    rfl
  unfold Query.windowClause isWhole
  generalize UInt64.size - 1 = greatest
  by_cases ho : w.offset = 0
  · cases w.limit with
    | none => simp [ho, readClause]
    | some limit =>
      rw [if_neg (by simp), if_pos ho, Option.elim_some, hlimit]
      simp [ho]
  · rw [if_neg (by simp [ho]), if_neg ho, hboth]
    cases w.limit with
    | none => simp [ho]
    | some limit => simp

/-- The rows that are returned if some are left out and there is a limit on the others. -/
def limited (all : List α) (clause : Option Nat × Nat) : List α :=
  match clause.1 with
  | none => all.drop clause.2
  | some n => (all.drop clause.2).take n

/-- The greatest count limits nothing. -/
theorem limited_windowClause (w : Window) {all : List α} (h : all.length < UInt64.size) :
    limited all (if w.limit = none ∧ w.offset ≠ 0 then some (UInt64.size - 1)
      else w.limit.map UInt64.toNat, w.offset.toNat) = w.rows all := by
  unfold limited rows
  cases w.limit with
  | none =>
    by_cases ho : w.offset = 0
    · simp [ho]
    · simp only [ho, ne_eq, not_false_eq_true, and_true, if_true]
      rw [List.take_of_length_le]
      rw [List.length_drop]
      omega
  | some limit => simp

end Window

namespace Query

/-- A call that changes the window of a query. -/
inductive Cut
  /-- Returns the first rows. -/
  | limit (n : UInt64)
  /-- Returns rows after some rows. -/
  | limitWithOffset (n offset : UInt64)
  /-- Returns a slice of the rows. -/
  | slice (lower upper : Bound)

/-- The query after a call. A slice that is refused leaves the query as it was. -/
def cut (q : Query) : Cut → Query
  | .limit n => q.limit n
  | .limitWithOffset n offset => q.limitWithOffset n offset
  | .slice lower upper => (q.slice lower upper).toOption.getD q

/-- What is left of some rows after a call. All rows are at hand, since limits start again
    with all of them. -/
def Cut.rows {α : Type} (all rows : List α) : Cut → List α
  | .limit n => all.take n.toNat
  | .limitWithOffset n offset => (all.drop offset.toNat).take n.toNat
  | .slice lower upper =>
    if Window.isRefused lower upper then rows else Window.between lower.first upper.past rows

/-- Slicing a query changes its window alone. -/
theorem slice_eq (q : Query) (lower upper : Bound) :
    q.slice lower upper =
      if Window.isRefused lower upper then
        .error (.reversedSlice lower.start (upper.stop.getD 0))
      else .ok { q with window := q.window.narrow lower.start upper.stop } := by
  rw [slice, Window.slice_eq]
  by_cases h : Window.isRefused lower upper = true
  · rw [if_pos h, if_pos h]
    rfl
  · rw [if_neg h, if_neg h]
    rfl

theorem cut_eq (q : Query) (c : Cut) : q.cut c = { q with window := (q.cut c).window } := by
  cases c with
  | limit n => rfl
  | limitWithOffset n offset => rfl
  | slice lower upper =>
    rw [cut, slice_eq]
    by_cases h : Window.isRefused lower upper = true
    · rw [if_pos h]
      rfl
    · rw [if_neg h]
      rfl

/-- A call does to the rows of a query what it does to rows. -/
theorem rows_cut {α : Type} (q : Query) (c : Cut) {all : List α} (h : all.length < UInt64.size) :
    (q.cut c).window.rows all = c.rows all (q.window.rows all) := by
  cases c with
  | limit n => rfl
  | limitWithOffset n offset => rfl
  | slice lower upper =>
    rw [cut, slice_eq, Cut.rows]
    by_cases hrefused : Window.isRefused lower upper = true
    · rw [if_pos hrefused, if_pos hrefused]
      rfl
    · rw [if_neg hrefused, if_neg hrefused]
      -- The rows of a window are no more than all rows, so counts do for positions.
      have hlength : (q.window.rows all).length ≤ UInt64.size - 1 := by
        have hdrop : (all.drop q.window.offset.toNat).length ≤ all.length := by
          rw [List.length_drop]
          omega
        unfold Window.rows
        cases q.window.limit with
        | none =>
          dsimp only
          omega
        | some limit =>
          dsimp only
          rw [List.length_take]
          omega
      show (q.window.narrow lower.start upper.stop).rows all = _
      rw [Window.rows_narrow _ _ _ (Or.inl h), Bound.toNat_start, Bound.map_toNat_stop,
        Window.between_min hlength]

/-- The text of a query is that of all its rows, with the clause of its window after it. -/
theorem selectText_eq (q : Query) :
    q.selectText = { q with window := {} }.selectText ++ windowClause q.window := by
  have hwhole : windowClause {} = [] := rfl
  have htext : ∀ w, { q with window := w }.selectText =
      "SELECT ".toList ++ (if q.distinct then "DISTINCT ".toList else [])
        ++ commaSeparated q.selection ++ q.fromClause ++ q.whereClause ++ q.groupClause
        ++ q.orderClause ++ windowClause w := fun _ => rfl
  rw [htext {}, hwhole, List.append_nil]
  exact htext q.window

/-- Limiting and slicing a query limits and slices its rows, whatever window it has at the
    start, as long as there are fewer rows than counts. Nothing but the window changes. A
    slice is refused if it ends before it starts, with one exception, and leaves the rows as
    they were. The clause at the end of the statement says which rows are returned. -/
theorem rows_of_cuts {α : Type} (q : Query) (cuts : List Cut) {all : List α}
    (h : all.length < UInt64.size) :
    (cuts.foldl cut q).window.rows all = cuts.foldl (Cut.rows all) (q.window.rows all) ∧
      cuts.foldl cut q = { q with window := (cuts.foldl cut q).window } ∧
      (∀ lower upper, (∃ fault, (cuts.foldl cut q).slice lower upper = .error fault) ↔
        Window.isRefused lower upper = true) ∧
      ∃ clause said, (cuts.foldl cut q).selectText =
          { cuts.foldl cut q with window := {} }.selectText ++ clause ∧
        Window.readClause clause = some said ∧
        Window.limited all said = (cuts.foldl cut q).window.rows all := by
  refine ⟨?_, ?_, ?_, ?_⟩
  · -- Induction on the calls, from the first one on.
    induction cuts generalizing q with
    | nil => rfl
    | cons c cuts ih => rw [List.foldl_cons, List.foldl_cons, ih, rows_cut q c h]
  · induction cuts generalizing q with
    | nil => rfl
    | cons c cuts ih =>
      rw [List.foldl_cons, ih, cut_eq q c]
  · intro lower upper
    rw [slice_eq]
    by_cases hrefused : Window.isRefused lower upper = true
    · rw [if_pos hrefused]
      exact ⟨fun _ => hrefused, fun _ => ⟨_, rfl⟩⟩
    · rw [if_neg hrefused]
      refine ⟨fun hfault => ?_, fun hyes => absurd hyes hrefused⟩
      rcases hfault with ⟨fault, hfault⟩
      cases hfault
  · exact ⟨_, _, selectText_eq _, Window.readClause_windowClause _,
      Window.limited_windowClause _ h⟩

/-- A table of visitors. -/
def visitors : Model :=
  ⟨"visitors", [{ name := "id", type := .word ⟨false, .w64⟩ }], none, false, rfl⟩

/-- A window, a slice that reaches beyond it, one that is refused, and one up to the greatest
    count. -/
def visitorCuts : List Cut :=
  [.limitWithOffset 20 5, .slice (.included 2) (.excluded 50), .slice (.excluded 7) (.included 3),
    .slice (.excluded 3) (.included 0xFFFFFFFFFFFFFFFF)]

/-- Of forty visitors those from the twelfth to the twenty-fifth are left. -/
theorem rows_of_visitors :
    (List.range 40).length < UInt64.size ∧
      (visitorCuts.foldl cut (all visitors)).window.rows (List.range 40) =
        visitorCuts.foldl (Cut.rows (List.range 40)) (List.range 40) ∧
      visitorCuts.foldl (Cut.rows (List.range 40)) (List.range 40) = List.range' 11 14 :=
  ⟨by decide, (rows_of_cuts (all visitors) visitorCuts (by decide)).1, by decide⟩

/-- A slice that starts after the greatest count ends before it starts if it ends there, but
    it is not refused, and the rows are gone. -/
theorem slice_after_greatest :
    Window.endsBeforeStart (.excluded 0xFFFFFFFFFFFFFFFF) (.excluded 0xFFFFFFFFFFFFFFFF) = true ∧
      ((all visitors).limit 10).window.rows [1, 2, 3] = [1, 2, 3] ∧
      ∃ q, ((all visitors).limit 10).slice (.excluded 0xFFFFFFFFFFFFFFFF)
          (.excluded 0xFFFFFFFFFFFFFFFF) = .ok q ∧ q.window.rows [1, 2, 3] = [] :=
  ⟨by decide, by decide, _, rfl, by decide⟩

end Query

end ColumnStore
