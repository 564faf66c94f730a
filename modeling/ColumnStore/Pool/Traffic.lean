import ColumnStore.Pool.Basic
import ColumnStore.Result.Rows

/-!
# Traffic through a Pool

A pool together with all who took a permit from it. A permit is first held by itself, then
by the cursor that reads the response, and perhaps by the rows that the cursor is turned
into. Each of them is known by a name, and a name that is used again means the latest.

A permit is given back at several places: when a cursor cannot be opened, when the cursor of
a question reaches the end of the response or fails, when a row cannot be turned into what
is wanted or no row could be, and when cursor or rows are closed or dropped. The cursor of a
command has no end to reach, so it keeps its permit until it is closed or dropped. A cursor
may also read without a permit.

Permits are numbered, and the numbers of those that came back are kept, so that one can say
of each permit what became of it.

## Main definitions

* `Holder`: Who may hold a permit.
* `Traffic`: A pool and its holders.
* `Traffic.giveBack`: A permit returns to the pool.
* `Traffic.take?`, `Traffic.put`: A holder without its name, and with one.
* `Traffic.acquire`, `Traffic.refuse`: An attempt to take a permit.
* `Traffic.start`, `Traffic.read`: A cursor is opened, and gives a row.
* `Traffic.records`, `Traffic.plain`, `Traffic.readRecord`, `Traffic.readPlain`: The same
  with the rows that a cursor is turned into.
* `Traffic.close`, `Traffic.drop`: Nothing more is read.
-/

namespace ColumnStore

/-- A permit, by its number. -/
abbrev Permit := Nat

/-- Who may hold a permit. -/
inductive Holder
  /-- A permit for a request that is not answered yet. -/
  | waiting (permit : Permit)
  /-- A cursor, which may have taken over a permit. -/
  | reading (cursor : Cursor) (permit : Option Permit)
  /-- The records of a model, which may have taken over the permit of their cursor. -/
  | records (rows : Rows Record) (permit : Option Permit)
  /-- Plain rows, which may have done the same. -/
  | plain (rows : Rows Row) (permit : Option Permit)

/-- The permit that is held. -/
def Holder.permit? : Holder → Option Permit
  | waiting permit => some permit
  | reading _ permit => permit
  | records _ permit => permit
  | plain _ permit => permit

/-- Whether a cursor gives up its permit with an answer. It does so at the end of its
    response and with a failure, but not if it had no rows in the first place. -/
def Cursor.givesUp (c : Cursor) (row : Option (Except Failure Cells)) : Bool :=
  match c.header, c.isOpen, row with
  | some _, true, some (.ok _) => false
  | some _, true, _ => true
  | _, _, _ => false

/-- A pool and those who may hold its permits, under names of their own. -/
structure Traffic where
  /-- The pool. -/
  pool : Pool
  /-- The holders, the latest first. -/
  holders : List (String × Holder) := []
  /-- The number of permits that were handed out, which is also the number of the next. -/
  issued : Nat := 0
  /-- The permits that were given back. -/
  returned : List Permit := []

namespace Traffic

/-- The holder of a name. -/
def find? (t : Traffic) (key : String) : Option Holder :=
  (t.holders.find? fun h => h.1 = key).map (·.2)

/-- Whether a permit is held under a name. -/
def holds (t : Traffic) (key : String) : Bool :=
  (t.find? key).any fun h => h.permit?.isSome

/-- Gives a permit back, if there is one. -/
def giveBack (t : Traffic) : Option Permit → Traffic
  | none => t
  | some permit => { t with pool := t.pool.release, returned := t.returned ++ [permit] }

/-- The holder of a name, and the others. -/
def take? (t : Traffic) (key : String) : Option (Holder × Traffic) :=
  (t.find? key).map fun h => (h, { t with holders := t.holders.eraseP fun h => h.1 = key })

/-- A holder gets a name. -/
def put (t : Traffic) (key : String) (h : Holder) : Traffic :=
  { t with holders := (key, h) :: t.holders }

/-- The holder of a name is no more. -/
def drop (t : Traffic) (key : String) : Traffic :=
  match t.take? key with
  | none => t
  | some (h, t) => t.giveBack h.permit?

/-- A new holder takes a permit, or is refused because there is none. -/
def acquire (t : Traffic) (key : String) : Except Failure Unit × Traffic :=
  match t.pool.acquire with
  | .ok pool =>
    (.ok (), { t with pool := pool, issued := t.issued + 1 }.put key (.waiting t.issued))
  | .error e => (.error e, t)

/-- An attempt to take a permit that waited for too long. One that does not block is refused
    when its time is over, even if a permit has just come back. -/
def refuse (t : Traffic) : Except Failure Unit × Traffic :=
  (.error (.transport (.noConnection t.pool.patience) none), t)

/-- The permit that waits under a name, and the others. -/
def claim (t : Traffic) (key : String) : Option Permit × Traffic :=
  match t.take? key with
  | some (.waiting permit, t) => (some permit, t)
  | _ => (none, t)

/-- A cursor takes over the permit that waits under a name, if there is one. If the cursor
    cannot be opened, the permit is given back. -/
def start (t : Traffic) (key : String) (s : Statement) (b : Body) :
    Except Failure Unit × Traffic :=
  let (permit, t) := t.claim key
  match Cursor.start s b with
  | .ok cursor => (.ok (), t.put key (.reading cursor permit))
  | .error e => (.error e, t.giveBack permit)

/-- What is left of a permit that is given up or not. -/
def settle (t : Traffic) (permit : Option Permit) (givesUp : Bool) : Option Permit × Traffic :=
  if givesUp then (none, t.giveBack permit) else (permit, t)

/-- The next row of a cursor. -/
def read (t : Traffic) (key : String) : Option (Except Failure Cells) × Traffic :=
  match t.take? key with
  | some (.reading cursor permit, t) =>
    let (row, after) := cursor.next
    let (permit, t) := t.settle permit (cursor.givesUp row)
    (row, t.put key (.reading after permit))
  | _ => (none, t)

/-- A cursor is turned into the records of a model. If they cannot be read, the cursor is no
    more. -/
def records (t : Traffic) (key : String) (m : Model) : Except Failure Unit × Traffic :=
  match t.take? key with
  | some (.reading cursor permit, t) =>
    match Rows.records m cursor with
    | .ok rows => (.ok (), t.put key (.records rows permit))
    | .error e => (.error e, t.giveBack permit)
  | _ => (.ok (), t)

/-- A cursor is turned into plain rows. -/
def plain (t : Traffic) (key : String) : Traffic :=
  match t.take? key with
  | some (.reading cursor permit, t) => t.put key (.plain (Rows.plain cursor) permit)
  | _ => t

/-- Rows after a call get a name. Their cursor may have given up its permit on its own, and
    if it is no more, it gives back the permit that it still had. -/
def advance {α : Type} (t : Traffic) (key : String) (holder : Rows α → Option Permit → Holder)
    (rows : Rows α) (permit : Option Permit) : Traffic :=
  let (permit, t) := t.settle permit (rows.cursor.any fun c => c.givesUp c.next.1)
  let after := rows.next.2
  let (permit, t) := t.settle permit after.cursor.isNone
  t.put key (holder after permit)

/-- The next record. -/
def readRecord (t : Traffic) (key : String) : Option (Except Failure Record) × Traffic :=
  match t.take? key with
  | some (.records rows permit, t) => (rows.next.1, t.advance key .records rows permit)
  | _ => (none, t)

/-- The next plain row. -/
def readPlain (t : Traffic) (key : String) : Option (Except Failure Row) × Traffic :=
  match t.take? key with
  | some (.plain rows permit, t) => (rows.next.1, t.advance key .plain rows permit)
  | _ => (none, t)

/-- A cursor or its rows give nothing more. -/
def close (t : Traffic) (key : String) : Traffic :=
  match t.take? key with
  | some (.reading cursor permit, t) => (t.giveBack permit).put key (.reading cursor.close none)
  | some (.records rows permit, t) => (t.giveBack permit).put key (.records rows.close none)
  | some (.plain rows permit, t) => (t.giveBack permit).put key (.plain rows.close none)
  | _ => t

/-- The number of rows that a cursor gives, `n` at most, and what is then. -/
def readRows (key : String) : Nat → Traffic → Nat × Traffic
  | 0, t => (0, t)
  | n + 1, t =>
    match t.read key with
    | (some (.ok _), t) =>
      let (count, t) := readRows key n t
      (count + 1, t)
    | (_, t) => readRows key n t

end Traffic

end ColumnStore
