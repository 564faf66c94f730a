import ColumnStore.Pool.Traffic
import ColumnStore.Proofs.Except.Basic
import Mathlib.Logic.Relation

/-!
# Permits Are Conserved

Whoever takes permits from a pool, whatever they read with them and in which order all
this happens, each permit that was handed out is either held by exactly one holder or was
given back exactly once, and the pool counts the ones that are held.

An event uses the pool once at most, so that the events of readers that run at the same time
can be put in the order in which the pool is used, and any list of events is such an order.

Every event is a sequence of a few moves: a holder loses its name, a permit comes out of
the pool or goes back, and a holder gets a name. Between two moves at most one permit is in
nobody's hands but ours. That permit is part of the invariant, so that each move keeps it,
and an event keeps it because its moves do.

## Main definitions

* `Traffic.held`: The permits that are held.
* `Traffic.Event`, `Traffic.step`, `Traffic.run`: What may happen to a pool.
* `Traffic.Move`: A part of an event.
* `Traffic.Balanced`: Each permit is held, in hand, or given back.
* `Traffic.Finishes`: An event after which a holder has no more use for its permit.
* `Traffic.Conserved`: What all this means for the permits of a pool.

## Theorems

* `Traffic.moves_step`: An event is a sequence of moves.
* `Traffic.Balanced.move`: A move keeps the balance.
* `Traffic.Balanced.run`: So does everything that may happen.
* `Traffic.mem_returned_of_finishes`: A holder gives its permit back with the last use of it.
* `Traffic.conserved_run`: The permits of a pool are conserved.
-/

namespace ColumnStore

/-! ### The end of cursors and rows -/

namespace Cursor

/-- A cursor is open at first. -/
theorem isOpen_of_start {s : Statement} {b : Body} {c : Cursor} (h : start s b = .ok c) :
    c.isOpen = true := by
  unfold start at h
  split at h
  · rcases of_bind_eq_ok h with ⟨headed, -, hc⟩
    rw [← Except.ok.inj hc]
  · rw [← Except.ok.inj h]

/-- A closed cursor stays closed, and one that is closed by an answer gives up its permit. -/
theorem givesUp_of_next {c : Cursor} (h : c.next.2.isOpen = false) :
    c.isOpen = false ∨ c.givesUp c.next.1 = true := by
  rcases c with ⟨header, body, statement, isOpen⟩
  cases isOpen with
  | false => exact .inl rfl
  | true =>
    cases header with
    | none => cases h
    | some header =>
      right
      unfold next at h ⊢
      simp only at h ⊢
      cases hline : (takeLine statement body).1 with
      | error e => rfl
      | ok line =>
        cases line with
        | none => rfl
        | some line =>
          simp only [hline] at h ⊢
          cases hcells : header.cells statement line with
          | error e => rfl
          | ok cells =>
            rw [hcells] at h
            cases h

/-- The open cursor of a question gives up its permit with an answer that is no row. -/
theorem givesUp_of_no_row {c : Cursor} (hheader : c.header.isSome = true) (hopen : c.isOpen = true)
    (hrow : ∀ cells, c.next.1 ≠ some (.ok cells)) : c.givesUp c.next.1 = true := by
  rcases Option.isSome_iff_exists.1 hheader with ⟨header, hsome⟩
  unfold givesUp
  rw [hsome, hopen]
  cases hnext : c.next.1 with
  | none => rfl
  | some row =>
    cases row with
    | error e => rfl
    | ok cells => exact absurd hnext (hrow cells)

end Cursor

namespace Rows

/-- Records have the cursor that was turned into them. -/
theorem cursor_of_records {m : Model} {c : Cursor} {rows : Rows Record}
    (h : records m c = .ok rows) : rows.cursor = some c := by
  rcases of_bind_eq_ok h with ⟨places, -, hrows⟩
  rw [← Except.ok.inj hrows]

/-- Rows have no cursor any more after an answer that is no row. -/
theorem cursor_of_no_row {α : Type} {rows : Rows α} (h : ∀ x, rows.next.1 ≠ some (.ok x)) :
    rows.next.2.cursor.isNone = true := by
  unfold next at h ⊢
  split
  · rename_i hnone
    rw [hnone]
    rfl
  · rename_i c hc
    simp only [hc] at h
    split
    · rfl
    · rfl
    · rename_i cells after hnext
      simp only [hnext] at h
      cases hdecode : rows.decode cells with
      | error e => rfl
      | ok x =>
        rw [hdecode] at h
        exact absurd rfl (h x)

end Rows

/-! ### Events -/

/-- A holder that has nothing to read any more: a closed cursor, or rows without one. -/
def Holder.finished : Holder → Bool
  | waiting _ => false
  | reading cursor _ => !cursor.isOpen
  | records rows _ => rows.cursor.isNone
  | plain rows _ => rows.cursor.isNone

/-- A holder that has nothing to read holds no permit. -/
def Holder.Sound (h : Holder) : Prop :=
  h.finished = true → h.permit? = none

namespace Traffic

/-- The permits that are held. -/
def held (t : Traffic) : List Permit :=
  t.holders.filterMap fun h => h.2.permit?

/-- What may happen to a pool and its holders. -/
inductive Event
  /-- Somebody takes a permit, or is refused because there is none. -/
  | acquire (key : String)
  /-- Somebody who does not block has waited for too long. -/
  | refuse
  /-- A cursor is opened, with the permit that waits under its name if there is one. -/
  | start (key : String) (s : Statement) (b : Body)
  /-- A cursor is called for its next row. -/
  | read (key : String)
  /-- A cursor is turned into the records of a model. -/
  | records (key : String) (m : Model)
  /-- A cursor is turned into plain rows. -/
  | plain (key : String)
  /-- Records are called for the next one. -/
  | readRecord (key : String)
  /-- Plain rows are called for the next one. -/
  | readPlain (key : String)
  /-- A cursor or its rows are closed. -/
  | close (key : String)
  /-- A holder is dropped. -/
  | drop (key : String)

/-- What is after an event. -/
def step (t : Traffic) : Event → Traffic
  | .acquire key => (t.acquire key).2
  | .refuse => t.refuse.2
  | .start key s b => (t.start key s b).2
  | .read key => (t.read key).2
  | .records key m => (t.records key m).2
  | .plain key => t.plain key
  | .readRecord key => (t.readRecord key).2
  | .readPlain key => (t.readPlain key).2
  | .close key => t.close key
  | .drop key => t.drop key

/-- What is after some events. -/
def run (t : Traffic) (events : List Event) : Traffic :=
  events.foldl step t

/-- A pool that nobody took a permit from. -/
def fresh (capacity patience : Nat) : Traffic :=
  { pool := ⟨capacity, patience, 0, Nat.zero_le _⟩ }

/-! ### Moves -/

/-- A part of an event. A permit may be in hand before it and after it. -/
inductive Move : Option Permit × Traffic → Option Permit × Traffic → Prop
  /-- A permit comes out of the pool. -/
  | handOut {t : Traffic} {pool : Pool} (hpool : t.pool.acquire = .ok pool) :
      Move (none, t) (some t.issued, { t with pool := pool, issued := t.issued + 1 })
  /-- A holder loses its name. -/
  | take {t rest : Traffic} {key : String} {h : Holder} (htake : t.take? key = some (h, rest)) :
      Move (none, t) (h.permit?, rest)
  /-- A permit goes back to the pool. -/
  | giveBack {t : Traffic} {permit : Option Permit} : Move (permit, t) (none, t.giveBack permit)
  /-- A holder gets a name, with the permit that was in hand. -/
  | put {t : Traffic} {permit : Option Permit} {key : String} {h : Holder}
      (hpermit : h.permit? = permit) (hsound : h.finished = true → permit = none) :
      Move (permit, t) (none, t.put key h)

/-- Some moves, one after the other. -/
abbrev Moves : Option Permit × Traffic → Option Permit × Traffic → Prop :=
  Relation.ReflTransGen Move

/-- The holder that loses its name is one of the holders, and the others stay. -/
theorem take?_eq {t rest : Traffic} {key : String} {h : Holder}
    (htake : t.take? key = some (h, rest)) :
    ∃ front back, t.holders = front ++ (key, h) :: back ∧
      rest = { t with holders := front ++ back } := by
  rw [take?, find?, Option.map_map, Option.map_eq_some_iff] at htake
  rcases htake with ⟨⟨key', h'⟩, hfind, heq⟩
  rw [Function.comp_apply, Prod.mk.injEq] at heq
  rcases heq with ⟨rfl, rfl⟩
  rcases List.find?_eq_some_iff_append.1 hfind with ⟨hkey, front, back, hall, hfront⟩
  have hname : key' = key := of_decide_eq_true hkey
  subst hname
  refine ⟨front, back, hall, ?_⟩
  -- What is erased is the entry that was found.
  have herase : (front ++ (key', h') :: back).eraseP (fun h => h.1 = key') = front ++ back := by
    rw [List.eraseP_append_right _ fun x hx => by simpa using hfront x hx, List.eraseP_cons,
      decide_eq_true rfl, cond_true]
  rw [hall, herase]

/-- What a holder had before it lost its name was sound. -/
theorem sound_of_take {t rest : Traffic} {key : String} {h : Holder}
    (ht : ∀ h ∈ t.holders, h.2.Sound) (htake : t.take? key = some (h, rest)) : h.Sound := by
  rcases take?_eq htake with ⟨front, back, hall, -⟩
  exact ht (key, h) (by simp [hall])

/-- A permit is given up or stays in hand. -/
theorem moves_settle (x : Option Permit × Traffic) (givesUp : Bool) :
    Moves x (x.2.settle x.1 givesUp) := by
  cases givesUp with
  | false => exact .refl
  | true => exact .single .giveBack

/-- The permit that waits under a name comes into the hand. -/
theorem moves_claim (t : Traffic) (key : String) : Moves (none, t) (t.claim key) := by
  unfold claim
  split
  · rename_i htake
    exact .single (.take htake)
  · exact .refl

/-- A permit that is given up is not in hand, and neither is one that was not before. -/
theorem settle_eq_none {x : Option Permit × Traffic} {givesUp : Bool}
    (h : x.1 = none ∨ givesUp = true) : (x.2.settle x.1 givesUp).1 = none := by
  cases givesUp with
  | false => exact h.resolve_right nofun
  | true => rfl

/-- Rows are called with the permit of their cursor in hand, which comes to them again if
    the cursor is still there. -/
theorem moves_advance {α : Type} {holder : Rows α → Option Permit → Holder}
    (hpermit : ∀ rows permit, (holder rows permit).permit? = permit)
    (hfinished : ∀ rows permit, (holder rows permit).finished = rows.cursor.isNone)
    (t : Traffic) (key : String) (rows : Rows α) (permit : Option Permit) :
    Moves (permit, t) (none, t.advance key holder rows permit) := by
  have hcursor := moves_settle (permit, t) (rows.cursor.any fun c => c.givesUp c.next.1)
  refine hcursor.trans (.trans (moves_settle _ rows.next.2.cursor.isNone) (.single ?_))
  refine .put (hpermit _ _) ?_
  intro hnone
  rw [hfinished] at hnone
  rw [hnone]
  rfl

/-- An event is a sequence of moves if no holder has a permit that it could not use. -/
theorem moves_step {t : Traffic} (ht : ∀ h ∈ t.holders, h.2.Sound) (event : Event) :
    Moves (none, t) (none, t.step event) := by
  cases event with
  | acquire key =>
    simp only [step, acquire]
    cases hpool : t.pool.acquire with
    | error e => exact .refl
    | ok pool =>
      -- The new permit waits under the name.
      exact .trans (.single (.handOut hpool)) (.single (.put rfl nofun))
  | refuse => exact .refl
  | start key s b =>
    have hclaim := moves_claim t key
    simp only [step, start]
    -- The permit is in hand while the cursor is opened.
    cases hstart : Cursor.start s b with
    | error e => exact hclaim.trans (.single .giveBack)
    | ok cursor =>
      refine hclaim.trans (.single (.put rfl ?_))
      intro hfinished
      rw [Holder.finished, Cursor.isOpen_of_start hstart] at hfinished
      cases hfinished
  | read key =>
    simp only [step, read]
    split
    · rename_i cursor permit rest htake
      refine .trans (.single (.take htake)) (.trans (moves_settle _ _) (.single (.put rfl ?_)))
      intro hfinished
      rw [Holder.finished, Bool.not_eq_true'] at hfinished
      apply settle_eq_none
      -- Either the cursor was closed before, or the answer closed it.
      rcases Cursor.givesUp_of_next hfinished with hclosed | hgivesUp
      · left
        refine sound_of_take ht htake ?_
        rw [Holder.finished, hclosed]
        rfl
      · exact .inr hgivesUp
    · exact .refl
  | records key m =>
    simp only [step, records]
    split
    · rename_i cursor permit rest htake
      refine .trans (.single (.take htake)) ?_
      cases hrows : Rows.records m cursor with
      | error e => exact .single .giveBack
      | ok rows =>
        refine .single (.put rfl ?_)
        intro hfinished
        rw [Holder.finished, Rows.cursor_of_records hrows] at hfinished
        cases hfinished
    · exact .refl
  | plain key =>
    simp only [step, plain]
    split
    · rename_i cursor permit rest htake
      exact .trans (.single (.take htake)) (.single (.put rfl nofun))
    · exact .refl
  | readRecord key =>
    simp only [step, readRecord]
    split
    · rename_i rows permit rest htake
      exact .trans (.single (.take htake))
        (moves_advance (fun _ _ => rfl) (fun _ _ => rfl) rest key rows permit)
    · exact .refl
  | readPlain key =>
    simp only [step, readPlain]
    split
    · rename_i rows permit rest htake
      exact .trans (.single (.take htake))
        (moves_advance (fun _ _ => rfl) (fun _ _ => rfl) rest key rows permit)
    · exact .refl
  | close key =>
    simp only [step, close]
    split
    · rename_i htake
      exact .trans (.single (.take htake))
        (.trans (.single .giveBack) (.single (.put rfl fun _ => rfl)))
    · rename_i htake
      exact .trans (.single (.take htake))
        (.trans (.single .giveBack) (.single (.put rfl fun _ => rfl)))
    · rename_i htake
      exact .trans (.single (.take htake))
        (.trans (.single .giveBack) (.single (.put rfl fun _ => rfl)))
    · exact .refl
  | drop key =>
    simp only [step, drop]
    split
    · exact .refl
    · rename_i htake
      exact .trans (.single (.take htake)) (.single .giveBack)

/-! ### The balance -/

/-- Each permit that was handed out is held, in hand, or given back, and only once, and the
    pool counts the ones that were not given back. No holder has a permit that it could not
    use. -/
structure Balanced (capacity : Nat) (x : Option Permit × Traffic) : Prop where
  /-- The pool is as large as ever. -/
  capacity_eq : x.2.pool.capacity = capacity
  /-- The pool counts the permits that are out. -/
  inUse_eq : x.2.pool.inUse = (x.1.toList ++ x.2.held).length
  /-- Each permit that was handed out is somewhere, and only there. -/
  count_eq : ∀ permit, x.2.returned.count permit + (x.1.toList ++ x.2.held).count permit =
    if permit < x.2.issued then 1 else 0
  /-- A holder that has nothing to read holds no permit. -/
  sound : ∀ h ∈ x.2.holders, h.2.Sound

/-- A holder that loses its name leaves its permit in the hand. -/
theorem held_of_take {t rest : Traffic} {key : String} {h : Holder}
    (htake : t.take? key = some (h, rest)) : t.held.Perm (h.permit?.toList ++ rest.held) := by
  rcases take?_eq htake with ⟨front, back, hall, rfl⟩
  simp only [held, hall, List.filterMap_append, List.filterMap_cons]
  cases h.permit? with
  | none => exact .refl _
  | some permit => exact List.perm_middle

theorem held_put (t : Traffic) (key : String) (h : Holder) :
    (t.put key h).held = h.permit?.toList ++ t.held := by
  rw [held, put, List.filterMap_cons]
  cases h.permit? with
  | none => rfl
  | some permit => rfl

/-- A move keeps the balance. -/
theorem Balanced.move {capacity : Nat} {x y : Option Permit × Traffic} (hx : Balanced capacity x)
    (hmove : Move x y) : Balanced capacity y := by
  rcases hx with ⟨hcapacity, hinUse, hcount, hsound⟩
  cases hmove with
  | @handOut t pool hpool =>
    rcases Pool.of_acquire_eq_ok hpool with ⟨-, hcap, hone⟩
    refine ⟨by rw [hcap, hcapacity], ?_, ?_, hsound⟩
    · show pool.inUse = (t.issued :: t.held).length
      rw [hone, hinUse, List.length_cons]
      rfl
    · intro (permit : Nat)
      have h : t.returned.count permit + t.held.count permit =
        if permit < t.issued then 1 else 0 := hcount permit
      show t.returned.count permit + (t.issued :: t.held).count permit =
        if permit < t.issued + 1 then 1 else 0
      -- The new permit was neither given back nor held before.
      by_cases hnew : permit = t.issued
      · rw [if_neg (by omega)] at h
        rw [if_pos (by omega), hnew, List.count_cons_self, ← hnew]
        omega
      · rw [List.count_cons_of_ne (Ne.symm hnew), h]
        by_cases hold : permit < t.issued
        · rw [if_pos hold, if_pos (by omega)]
        · rw [if_neg hold, if_neg (by omega)]
  | @take t rest key h htake =>
    -- The permit comes from the holders into the hand, and none is lost on the way.
    have hperm := held_of_take htake
    rcases take?_eq htake with ⟨front, back, hall, rfl⟩
    refine ⟨hcapacity, ?_, ?_, ?_⟩
    · rw [← hperm.length_eq]
      exact hinUse
    · intro permit
      rw [← hperm.count_eq]
      exact hcount permit
    · intro h' hh'
      apply hsound
      rw [hall]
      rcases List.mem_append.1 hh' with hfront | hback
      · exact List.mem_append_left _ hfront
      · exact List.mem_append_right _ (List.mem_cons_of_mem _ hback)
  | @giveBack t permit =>
    cases permit with
    | none => exact ⟨hcapacity, hinUse, hcount, hsound⟩
    | some permit =>
      -- The pool has one permit less out, and it is the one that was in hand.
      refine ⟨hcapacity, ?_, ?_, hsound⟩
      · show t.pool.inUse - 1 = t.held.length
        rw [hinUse]
        rfl
      · intro other
        have h : t.returned.count other + ([permit] ++ t.held).count other =
          if other < t.issued then 1 else 0 := hcount other
        show (t.returned ++ [permit]).count other + t.held.count other =
          if other < t.issued then 1 else 0
        rw [List.count_append] at h
        rw [List.count_append, Nat.add_assoc, h]
  | @put t permit key h hpermit hfinished =>
    refine ⟨hcapacity, ?_, ?_, ?_⟩
    · show t.pool.inUse = (t.put key h).held.length
      rw [held_put, hpermit]
      exact hinUse
    · intro other
      show t.returned.count other + (t.put key h).held.count other =
        if other < t.issued then 1 else 0
      rw [held_put, hpermit]
      exact hcount other
    · intro h' hh'
      rcases List.mem_cons.1 hh' with rfl | hrest
      · intro hdone
        rw [hpermit]
        exact hfinished hdone
      · exact hsound h' hrest

/-- Moves keep the balance, whatever they do before the last of them. -/
theorem Balanced.moves {capacity : Nat} {x y : Option Permit × Traffic} (hx : Balanced capacity x)
    (hmoves : Moves x y) : Balanced capacity y := by
  induction hmoves with
  | refl => exact hx
  | tail _ hmove ih => exact ih.move hmove

/-- Whatever happens, the books are balanced after it. -/
theorem Balanced.run {capacity : Nat} {t : Traffic} (ht : Balanced capacity (none, t))
    (events : List Event) : Balanced capacity (none, t.run events) := by
  induction events generalizing t with
  | nil => exact ht
  | cons event events ih => exact ih (ht.moves (moves_step ht.sound event))

theorem balanced_fresh (capacity patience : Nat) :
    Balanced capacity (none, fresh capacity patience) where
  capacity_eq := rfl
  inUse_eq := rfl
  count_eq := fun permit => (if_neg (Nat.not_lt_zero permit)).symm
  sound := fun _ h => absurd h List.not_mem_nil

/-! ### What is given back stays so -/

/-- A permit that was given back stays given back. -/
theorem mem_returned_of_move {x y : Option Permit × Traffic} (hmove : Move x y) {permit : Permit}
    (h : permit ∈ x.2.returned) : permit ∈ y.2.returned := by
  cases hmove with
  | handOut _ => exact h
  | take htake =>
    rcases take?_eq htake with ⟨front, back, -, rfl⟩
    exact h
  | @giveBack t other =>
    cases other with
    | none => exact h
    | some other => exact List.mem_append_left _ h
  | put _ _ => exact h

theorem mem_returned_of_moves {x y : Option Permit × Traffic} (hmoves : Moves x y)
    {permit : Permit} (h : permit ∈ x.2.returned) : permit ∈ y.2.returned := by
  induction hmoves with
  | refl => exact h
  | tail _ hmove ih => exact mem_returned_of_move hmove ih

/-- Whatever happens, a permit that was given back stays so. -/
theorem mem_returned_run {capacity : Nat} {t : Traffic} (ht : Balanced capacity (none, t))
    (events : List Event) {permit : Permit} (h : permit ∈ t.returned) :
    permit ∈ (t.run events).returned := by
  induction events generalizing t with
  | nil => exact h
  | cons event events ih =>
    have hmoves := moves_step ht.sound event
    exact ih (ht.moves hmoves) (mem_returned_of_moves hmoves h)

/-! ### The last use of a permit -/

/-- An event after which a holder has no more use for its permit: its cursor could not be
    opened or turned into records, the answer was no row, or it was closed or dropped. The
    cursor of a command has no rows, so that its answers do not count. -/
inductive Finishes (key : String) : Holder → Event → Prop
  | start {permit : Permit} {s : Statement} {b : Body} {e : Failure}
      (hstart : Cursor.start s b = .error e) : Finishes key (.waiting permit) (.start key s b)
  | read {cursor : Cursor} {permit : Option Permit} (hheader : cursor.header.isSome = true)
      (hrow : ∀ cells, cursor.next.1 ≠ some (.ok cells)) :
      Finishes key (.reading cursor permit) (.read key)
  | records {cursor : Cursor} {permit : Option Permit} {m : Model} {e : Failure}
      (hrecords : Rows.records m cursor = .error e) :
      Finishes key (.reading cursor permit) (.records key m)
  | readRecord {rows : Rows Record} {permit : Option Permit}
      (hrecord : ∀ record, rows.next.1 ≠ some (.ok record)) :
      Finishes key (.records rows permit) (.readRecord key)
  | readPlain {rows : Rows Row} {permit : Option Permit}
      (hrow : ∀ row, rows.next.1 ≠ some (.ok row)) :
      Finishes key (.plain rows permit) (.readPlain key)
  | close {h : Holder} (hreads : ∀ permit, h ≠ .waiting permit) : Finishes key h (.close key)
  | drop {h : Holder} : Finishes key h (.drop key)

theorem mem_returned_giveBack (t : Traffic) {held : Option Permit} {permit : Permit}
    (hheld : held = some permit) : permit ∈ (t.giveBack held).returned := by
  rw [hheld]
  exact List.mem_append_right _ List.mem_cons_self

theorem take?_of_find? {t : Traffic} {key : String} {h : Holder} (hfind : t.find? key = some h) :
    ∃ rest, t.take? key = some (h, rest) :=
  ⟨_, by rw [take?, hfind, Option.map_some]⟩

/-- Rows whose cursor is gone after a call have given back its permit. -/
theorem mem_returned_advance {α : Type} (t : Traffic) (key : String)
    (holder : Rows α → Option Permit → Holder) {rows : Rows α} {held : Option Permit}
    {permit : Permit} (hheld : held = some permit)
    (hrow : ∀ x, rows.next.1 ≠ some (.ok x)) :
    permit ∈ (t.advance key holder rows held).returned := by
  simp only [advance, Rows.cursor_of_no_row hrow]
  -- Either the cursor gave up the permit, or it had it until it was gone.
  cases rows.cursor.any fun c => c.givesUp c.next.1 with
  | false => exact mem_returned_giveBack t hheld
  | true => exact mem_returned_giveBack t hheld

/-- A holder gives its permit back with the last use of it. -/
theorem mem_returned_of_finishes {t : Traffic} (ht : ∀ h ∈ t.holders, h.2.Sound) {key : String}
    {h : Holder} {event : Event} {permit : Permit} (hfind : t.find? key = some h)
    (hfinishes : Finishes key h event) (hpermit : h.permit? = some permit) :
    permit ∈ (t.step event).returned := by
  rcases take?_of_find? hfind with ⟨rest, htake⟩
  cases hfinishes with
  | start hstart =>
    simp only [step, start, claim, htake, hstart]
    exact mem_returned_giveBack rest hpermit
  | @read cursor held hheader hrow =>
    -- A cursor that was closed before would have had no permit.
    have hopen : cursor.isOpen = true := by
      by_contra hclosed
      have hnone := sound_of_take ht htake (by simpa [Holder.finished] using hclosed)
      rw [hpermit] at hnone
      cases hnone
    simp only [step, read, htake, Cursor.givesUp_of_no_row hheader hopen hrow]
    exact mem_returned_giveBack rest hpermit
  | records hrecords =>
    simp only [step, records, htake, hrecords]
    exact mem_returned_giveBack rest hpermit
  | readRecord hrecord =>
    simp only [step, readRecord, htake]
    exact mem_returned_advance rest key .records hpermit hrecord
  | readPlain hrow =>
    simp only [step, readPlain, htake]
    exact mem_returned_advance rest key .plain hpermit hrow
  | close hreads =>
    simp only [step, close, htake]
    cases h with
    | waiting permit => exact absurd rfl (hreads permit)
    | reading cursor held => exact mem_returned_giveBack rest hpermit
    | records rows held => exact mem_returned_giveBack rest hpermit
    | plain rows held => exact mem_returned_giveBack rest hpermit
  | drop =>
    simp only [step, drop, htake]
    exact mem_returned_giveBack rest hpermit

/-- A permit that was given back is never held again. -/
theorem Balanced.not_mem_held {capacity : Nat} {t : Traffic} (ht : Balanced capacity (none, t))
    {permit : Permit} (h : permit ∈ t.returned) : permit ∉ t.held := by
  intro hheld
  have hcount : t.returned.count permit + t.held.count permit =
    if permit < t.issued then 1 else 0 := ht.count_eq permit
  have hreturned := List.count_pos_iff.2 h
  have hagain := List.count_pos_iff.2 hheld
  split at hcount <;> omega

/-! ### The permits of a pool -/

/-- The permits of a pool are conserved by what happened to it, and will be. -/
structure Conserved (capacity : Nat) (t : Traffic) : Prop where
  /-- The permits in use are the ones that are held. -/
  inUse_eq : t.pool.inUse = t.held.length
  /-- No more are held than there are. -/
  held_le : t.held.length ≤ capacity
  /-- The others can be taken. -/
  available_eq : t.pool.available = capacity - t.held.length
  /-- Each permit that was handed out is held once, or was given back once. -/
  count_eq : ∀ permit, t.returned.count permit + t.held.count permit =
    if permit < t.issued then 1 else 0
  /-- An attempt is granted while permits are left. While all are held, it is refused and
      changes nothing. -/
  acquire : ∀ key, match t.acquire key with
    | (.ok _, after) => t.held.length < capacity ∧ after.held = t.issued :: t.held
    | (.error _, after) => t.held.length = capacity ∧ after = t
  /-- Nor does an attempt that waited for too long. -/
  refuse : t.refuse.2 = t
  /-- Closed cursors hold no permit, and neither do rows without a cursor. -/
  sound : ∀ h ∈ t.holders, h.2.finished = true → h.2.permit? = none
  /-- After the last use of a permit nobody holds it, whatever happens then. -/
  finishes : ∀ key h event permit, t.find? key = some h → Finishes key h event →
    h.permit? = some permit → ∀ more, permit ∉ (t.run (event :: more)).held

/-- Whatever happens to a pool and to those who take permits from it, in whatever order, its
    permits are conserved. -/
theorem conserved_run (capacity patience : Nat) (events : List Event) :
    Conserved capacity ((fresh capacity patience).run events) := by
  have ht := (balanced_fresh capacity patience).run events
  generalize (fresh capacity patience).run events = t at ht
  have hinUse : t.pool.inUse = t.held.length := ht.inUse_eq
  have hcapacity : t.pool.capacity = capacity := ht.capacity_eq
  have hle := t.pool.inUse_le
  refine ⟨hinUse, by omega, by rw [Pool.available, hinUse, hcapacity], ht.count_eq, ?_, rfl,
    ht.sound, ?_⟩
  · intro key
    unfold acquire
    cases hpool : t.pool.acquire with
    | error e =>
      have hfull := Pool.of_acquire_eq_error hpool
      exact ⟨by omega, rfl⟩
    | ok pool =>
      have hlt := (Pool.of_acquire_eq_ok hpool).1
      exact ⟨by omega, held_put _ _ _⟩
  · intro key h event permit hfind hfinishes hpermit more
    have hafter := ht.moves (moves_step ht.sound event)
    have hreturned := mem_returned_of_finishes ht.sound hfind hfinishes hpermit
    exact (hafter.run more).not_mem_held (mem_returned_run hafter more hreturned)

/-- The only permit comes back from a cursor that cannot be opened, and another one is handed
    out then. -/
example :
    ((fresh 1 50).run [.acquire "a", .acquire "b",
      .start "a" ⟨"SELECT 1", true⟩ (Body.stream [] [] (some (.transport .unreadableBody none))),
      .acquire "b"]).held = [1] := by
  rfl

end Traffic

end ColumnStore
