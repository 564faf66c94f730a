import Mathlib.Data.Option.Basic
import ColumnStore.Proofs.Except.Basic
import ColumnStore.Proofs.Wire.Calls
import ColumnStore.Proofs.Wire.Lines
import ColumnStore.Result.Rows

/-!
# Readers in Lockstep

Two readers of the same bytes, one of which may wait for all of them while the other takes
them as they arrive, in any chunks. They are in step as long as the same bytes are to come
for both. A step of one is matched by a step of the other: the same line, the same row, the
same result or failure, and they are in step again. So nothing that is asked of two such
readers tells them apart.

Being in step is a property of bodies, then of cursors, then of results; each is kept by a
step because the one below it is.

## Main definitions

* `Body.InStep`, `Cursor.InStep`, `Rows.InStep`: The same bytes are to come for both.

## Theorems

* `Body.InStep.nextLine`, `Cursor.InStep.next`, `Rows.InStep.next`: What a step keeps.
* `Cursor.InStep.start`, `Rows.InStep.plain`, `Rows.InStep.records`: How readers get in step.
* `Rows.InStep.calls`, `Rows.InStep.first_eq`, `Rows.InStep.all_eq`: What is asked of results.
-/

namespace ColumnStore

open Wire

namespace Body

/-- The same bytes are to come for two bodies, neither of which breaks off. -/
structure InStep (b b' : Body) : Prop where
  /-- The first one ends. -/
  unbroken_left : b.Unbroken
  /-- The second one ends. -/
  unbroken_right : b'.Unbroken
  /-- The bytes are the same. -/
  rest_eq : b.rest = b'.rest

variable {b b' : Body}

/-- However the chunks of a response are read, the same bytes are to come. -/
theorem inStep_ofChunks (mode mode' : Mode) (chunks : List Bytes) :
    InStep (ofChunks mode chunks) (ofChunks mode' chunks) :=
  ⟨unbroken_ofChunks mode chunks, unbroken_ofChunks mode' chunks, by
    rw [rest_ofChunks, rest_ofChunks]⟩

/-- Both have the same next line, and the same bytes follow it. -/
theorem InStep.nextLine (h : InStep b b') :
    b.nextLine.1 = b'.nextLine.1 ∧ InStep b.nextLine.2 b'.nextLine.2 := by
  by_cases hrest : b.rest = []
  · rcases nextLine_of_rest_nil h.unbroken_left hrest with ⟨after, hnext, hafter, hnil⟩
    rcases nextLine_of_rest_nil h.unbroken_right (h.rest_eq ▸ hrest) with
      ⟨after', hnext', hafter', hnil'⟩
    rw [hnext, hnext']
    exact ⟨rfl, hafter, hafter', hnil.trans hnil'.symm⟩
  · rcases nextLine_of_rest_ne_nil h.unbroken_left hrest with ⟨after, hnext, hafter, hleft⟩
    rcases nextLine_of_rest_ne_nil h.unbroken_right (h.rest_eq ▸ hrest) with
      ⟨after', hnext', hafter', hleft'⟩
    rw [hnext, hnext', h.rest_eq]
    exact ⟨rfl, hafter, hafter', by rw [hleft, hleft', h.rest_eq]⟩

/-- The bound on the lines that are left is the number of bytes to come. -/
theorem size_eq (b : Body) : b.size = b.rest.length := by
  cases b with
  | whole rest => rfl
  | arriving buffer chunks broken => exact List.length_append.symm

end Body

namespace Cursor

/-- The same bytes are to come for two cursors, which stand at the same place of answers
    with the same header. -/
structure InStep (c c' : Cursor) : Prop where
  /-- The headers are the same. -/
  header_eq : c.header = c'.header
  /-- The statements are the same. -/
  statement_eq : c.statement = c'.statement
  /-- Both are open, or neither is. -/
  isOpen_eq : c.isOpen = c'.isOpen
  /-- The same bytes are to come. -/
  body : Body.InStep c.body c'.body

variable {b b' : Body} {c c' : Cursor}

theorem takeLine_inStep (statement : String) (h : Body.InStep b b') :
    (takeLine statement b).1 = (takeLine statement b').1 ∧
      Body.InStep (takeLine statement b).2 (takeLine statement b').2 := by
  rcases h.nextLine with ⟨hline, hafter⟩
  exact ⟨congrArg (Except.mapError _) hline, hafter⟩

/-- Both find the same header, and the same bytes follow it, or both fail to. -/
theorem readHeader_inStep (statement : String) (h : Body.InStep b b') :
    Matched (fun p p' => p.1 = p'.1 ∧ Body.InStep p.2 p'.2) (readHeader statement b)
      (readHeader statement b') := by
  rcases takeLine_inStep statement h with ⟨hnames, hafter⟩
  unfold readHeader
  dsimp only
  rw [hnames]
  refine (Matched.refl _).bind ?_
  rintro names _ rfl
  cases names with
  | none => exact .ok ⟨rfl, hafter⟩
  | some names =>
    rcases takeLine_inStep statement hafter with ⟨htypes, hlast⟩
    dsimp only
    rw [htypes]
    refine (Matched.refl _).bind ?_
    rintro types _ rfl
    cases types with
    | none => exact .error _
    | some types =>
      refine (Matched.refl _).bind ?_
      rintro header _ rfl
      exact .ok ⟨rfl, hlast⟩

/-- Two cursors are opened in step, or both are refused for the same reason. -/
theorem InStep.start (s : Statement) (h : Body.InStep b b') :
    Matched InStep (Cursor.start s b) (Cursor.start s b') := by
  unfold Cursor.start
  cases s.returnsRows with
  | false => exact .ok ⟨rfl, rfl, rfl, h⟩
  | true =>
    refine (readHeader_inStep s.text h).bind ?_
    rintro ⟨header, after⟩ ⟨_, after'⟩ ⟨rfl, hafter⟩
    exact .ok ⟨rfl, rfl, rfl, hafter⟩

/-- Both give the same row or failure, or are both at the end. -/
theorem InStep.next (h : InStep c c') :
    c.next.1 = c'.next.1 ∧ InStep c.next.2 c'.next.2 := by
  rcases c with ⟨header, body, statement, isOpen⟩
  rcases c' with ⟨header', body', statement', isOpen'⟩
  rcases h with ⟨rfl, rfl, rfl, hbody⟩
  dsimp only at hbody
  cases header with
  | none => exact ⟨rfl, rfl, rfl, rfl, hbody⟩
  | some header =>
    cases isOpen with
    | false => exact ⟨rfl, rfl, rfl, rfl, hbody⟩
    | true =>
      rcases takeLine_inStep statement hbody with ⟨hline, hafter⟩
      unfold Cursor.next
      dsimp only
      rw [hline]
      -- The line ends the rows, or is a row, or is the failure that closes both cursors.
      cases (takeLine statement body').1 with
      | error e => exact ⟨rfl, rfl, rfl, rfl, hafter⟩
      | ok line =>
        cases line with
        | none => exact ⟨rfl, rfl, rfl, rfl, hafter⟩
        | some line =>
          dsimp only
          cases header.cells statement line with
          | error e => exact ⟨rfl, rfl, rfl, rfl, hafter⟩
          | ok cells => exact ⟨rfl, rfl, rfl, rfl, hafter⟩

theorem InStep.bound_eq (h : InStep c c') : c.bound = c'.bound := by
  rw [bound, bound, Body.size_eq, Body.size_eq, h.body.rest_eq]

end Cursor

namespace Rows

variable {α : Type}

/-- The same bytes are to come for two results, and the same becomes of them. -/
structure InStep (r r' : Rows α) : Prop where
  /-- Neither has anything left, or the same bytes are to come for both. -/
  cursor : Option.Rel Cursor.InStep r.cursor r'.cursor
  /-- The same becomes of the rows. -/
  decode_eq : r.decode = r'.decode

variable {r r' : Rows α} {c c' : Cursor}

theorem InStep.plain (h : Cursor.InStep c c') : InStep (Rows.plain c) (Rows.plain c') :=
  ⟨.some h, by rw [Rows.plain, Rows.plain, h.header_eq]⟩

/-- The records of a model are in step, or the header has a column that the model lacks. -/
theorem InStep.records (m : Model) (h : Cursor.InStep c c') :
    Matched InStep (Rows.records m c) (Rows.records m c') := by
  unfold Rows.records
  rw [h.header_eq, h.statement_eq]
  refine (Matched.refl _).bind ?_
  rintro places _ rfl
  exact .ok ⟨.some h, rfl⟩

theorem InStep.close (h : InStep r r') : InStep r.close r'.close :=
  ⟨.none, h.decode_eq⟩

/-- Both give the same result or failure, or are both at the end. -/
theorem InStep.next (h : InStep r r') : r.next.1 = r'.next.1 ∧ InStep r.next.2 r'.next.2 := by
  have hclose := h.close
  rcases r with ⟨cursor, decode⟩
  rcases r' with ⟨cursor', decode'⟩
  rcases h with ⟨hcursor, rfl⟩
  cases hcursor with
  | none => exact ⟨rfl, .none, rfl⟩
  | @some c c' h =>
    rcases h.next with ⟨hgiven, hafter⟩
    unfold Rows.next
    dsimp only
    cases hn : c.next with
    | mk given after =>
      cases hn' : c'.next with
      | mk given' after' =>
        rw [hn, hn'] at hgiven hafter
        dsimp only at hgiven hafter
        subst hgiven
        cases given with
        | none => exact ⟨rfl, hclose⟩
        | some row =>
          cases row with
          | error e => exact ⟨rfl, hclose⟩
          | ok cells =>
            dsimp only
            rw [hafter.statement_eq]
            cases decode cells with
            | error e => exact ⟨rfl, hclose⟩
            | ok x => exact ⟨rfl, .some hafter, rfl⟩

/-- However often both are called, they give the same. -/
theorem InStep.calls (h : InStep r r') (n : Nat) :
    ColumnStore.calls Rows.next n r = ColumnStore.calls Rows.next n r' := by
  induction n generalizing r r' with
  | zero => rfl
  | succ n ih =>
    rcases h.next with ⟨hgiven, hafter⟩
    rw [ColumnStore.calls, ColumnStore.calls, hgiven, ih hafter]

theorem InStep.first_eq (h : InStep r r') : r.first = r'.first := by
  rw [first, first, h.next.1]

theorem InStep.take_eq (h : InStep r r') (n : Nat) : (r.take n).1 = (r'.take n).1 := by
  induction n generalizing r r' with
  | zero => rfl
  | succ n ih =>
    rcases h.next with ⟨hgiven, hafter⟩
    unfold take
    cases hn : r.next with
    | mk given after =>
      cases hn' : r'.next with
      | mk given' after' =>
        rw [hn, hn'] at hgiven hafter
        dsimp only at hgiven hafter
        subst hgiven
        cases given with
        | none => rfl
        | some x =>
          cases x with
          | error e => rfl
          | ok x => exact congrArg (Except.ok x :: ·) (ih hafter)

theorem InStep.bound_eq (h : InStep r r') : r.bound = r'.bound := by
  rcases r with ⟨cursor, decode⟩
  rcases r' with ⟨cursor', decode'⟩
  rcases h with ⟨hcursor, -⟩
  cases hcursor with
  | none => rfl
  | some h => exact h.bound_eq

/-- Both have the same results left, or the same first failure among them. -/
theorem InStep.all_eq (h : InStep r r') : r.all = r'.all := by
  rw [all, all, toList, toList, h.bound_eq, h.take_eq]

end Rows

end ColumnStore
