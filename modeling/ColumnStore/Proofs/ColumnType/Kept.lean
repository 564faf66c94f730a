import ColumnStore.ColumnType.Accept
import ColumnStore.Proofs.ColumnType.Shape
import ColumnStore.Proofs.Decimal.Rounding

/-!
# What Types Accept

What becomes of the values that a type accepts. A type that is neither composite nor a
wrapper turns whatever it accepts into one of the values that it keeps: values of one
kind, within its range. Absence of content is the one thing that only a wrapper lets
through.

## Main definitions

* `ColumnType.Keeps`: The values that a type keeps.

## Theorems

* `ColumnType.keeps_of_acceptAs`: What is accepted becomes a value that the type
  keeps.
* `ColumnType.of_acceptAs_array`, `ColumnType.of_acceptAs_tuple`,
  `ColumnType.of_acceptAs_map`: Composite values are accepted part by part.
* `ColumnType.accept_ne_null`: Content never becomes the absence of content.
-/

namespace ColumnStore

namespace ColumnType

/-- The values that a type keeps which is neither composite nor a wrapper. -/
inductive Keeps : ColumnType → Value → Prop
  /-- Texts. -/
  | string (s : String) : Keeps string (.string s)
  /-- Texts of a number of bytes. -/
  | fixedString (n : UInt64) (s : String) : Keeps (fixedString n) (.string s)
  /-- Days. -/
  | date (d : Date) : Keeps date (.date d)
  /-- Points in time. -/
  | dateTime (zone : Option String) (t : Instant) : Keeps (dateTime zone) (.dateTime t)
  /-- Points in time with decimal places. -/
  | dateTime64 (p : UInt8) (zone : Option String) (t : Instant) :
      Keeps (dateTime64 p zone) (.dateTime t)
  /-- Integers in a range. -/
  | word (w : WordType) (n : Int) (h : w.holds n = true) : Keeps (word w) (Value.ofWord w n)
  /-- Floating-point numbers. -/
  | float32 (x : Binary64) : Keeps float32 (.float x)
  /-- Floating-point numbers. -/
  | float64 (x : Binary64) : Keeps float64 (.float x)
  /-- Decimals as they come from rounding and filling up places. -/
  | decimal (p q : UInt8) (d e : Decimal) (h : acceptDecimal p q d = .ok (.decimal e)) :
      Keeps (decimal p q) (.decimal e)
  /-- Truth values. -/
  | bool (b : Bool) : Keeps bool (.bool b)
  /-- Members by their names. -/
  | enum (size : EnumSize) (members : List (String × Int16)) (name : String)
      (h : memberNamed? members name = some name) : Keeps (enum size members) (.enum name)
  /-- Unique identifiers. -/
  | uuid (u : Uuid) : Keeps uuid (.uuid u)
  /-- Internet addresses of four bytes. -/
  | ipv4 (a : Ipv4) : Keeps ipv4 (.ipv4 a)
  /-- Internet addresses of sixteen bytes. -/
  | ipv6 (a : Ipv6) : Keeps ipv6 (.ipv6 a)
  /-- JSON documents. -/
  | json (j : Json) : Keeps json (.json j)

/-- A member that was found in whatever way is found by its name. -/
theorem memberNamed?_of_find? {members : List (String × Int16)} {p : String × Int16 → Bool}
    {name : String} (h : (members.find? p).map (·.1) = some name) :
    memberNamed? members name = some name := by
  rcases Option.map_eq_some_iff.1 h with ⟨m, hfind, rfl⟩
  cases hnamed : members.find? (fun m' => m'.1 = m.1) with
  | none =>
    -- The member itself has its name, so that one is found.
    have hnot := List.find?_eq_none.1 hnamed m (List.mem_of_find?_eq_some hfind)
    simp at hnot
  | some m' =>
    have hname := List.find?_some hnamed
    simp only [decide_eq_true_eq] at hname
    rw [memberNamed?, hnamed, Option.map_some, hname]

/-- A member that was found by its name has that name. -/
theorem eq_of_memberNamed? {members : List (String × Int16)} {name found : String}
    (h : memberNamed? members name = some found) : found = name := by
  unfold memberNamed? at h
  rcases Option.map_eq_some_iff.1 h with ⟨m, hfind, rfl⟩
  simpa using List.find?_some hfind

theorem keeps_of_acceptDate {d : Date} {w : Value} (h : acceptDate d = .ok w) :
    Keeps date w := by
  unfold acceptDate at h
  split at h
  · cases h
  · rw [← Except.ok.inj h]
    exact .date d

theorem keeps_of_acceptWord {w : WordType} {n : Int} {v : Value} (h : acceptWord w n = .ok v) :
    Keeps (word w) v := by
  unfold acceptWord at h
  split at h
  · next hn =>
    rw [← Except.ok.inj h]
    exact .word w n hn
  · cases h

theorem keeps_of_acceptInteger {outer : ColumnType} {w : WordType} {v u : Value}
    (h : acceptInteger outer w v = .ok u) : Keeps (word w) u := by
  unfold acceptInteger at h
  split at h
  · exact keeps_of_acceptWord h
  · exact keeps_of_acceptWord h
  · exact keeps_of_acceptWord h
  · cases h

theorem eq_dateTime_of_acceptInstant {outer : ColumnType} {v w : Value}
    (h : acceptInstant outer v = .ok w) : ∃ t, w = .dateTime t := by
  unfold acceptInstant at h
  split at h
  · split at h
    · cases h
    · exact ⟨_, (Except.ok.inj h).symm⟩
  · exact ⟨_, (Except.ok.inj h).symm⟩
  · cases h

theorem eq_float_of_acceptFloat {outer : ColumnType} {v w : Value}
    (h : acceptFloat outer v = .ok w) : ∃ x, w = .float x := by
  unfold acceptFloat at h
  split at h
  · exact ⟨_, (Except.ok.inj h).symm⟩
  · exact ⟨_, (Except.ok.inj h).symm⟩
  · exact ⟨_, (Except.ok.inj h).symm⟩
  · cases h

/-- What becomes of a member is its name. -/
theorem of_member {e : CodecError} {w : Value} {found : Option String}
    (h : (match found with
      | some name => .ok (.enum name)
      | none => .error e : Except CodecError Value) = .ok w) :
    ∃ name, found = some name ∧ w = .enum name := by
  cases found with
  | none => cases h
  | some name => exact ⟨name, rfl, (Except.ok.inj h).symm⟩

/-- The member that is found for a value is found by its name. -/
theorem keeps_of_toMember {outer : ColumnType} {members : List (String × Int16)} {v w : Value}
    (size : EnumSize) (h : toMember outer members v = .ok w) : Keeps (enum size members) w := by
  -- The member is looked up first, by name or by value, and must be there.
  cases v with
  | enum key =>
    rcases of_member h with ⟨name, hname, rfl⟩
    exact .enum size members name (memberNamed?_of_find? hname)
  | string key =>
    rcases of_member h with ⟨name, hname, rfl⟩
    exact .enum size members name (memberNamed?_of_find? hname)
  | int n =>
    rcases of_member h with ⟨name, hname, rfl⟩
    exact .enum size members name (memberNamed?_of_find? hname)
  | uint n =>
    rcases of_member h with ⟨name, hname, rfl⟩
    exact .enum size members name (memberNamed?_of_find? hname)
  | _ => cases h

theorem keeps_of_acceptScalar {outer t : ColumnType} {v w : Value}
    (h : acceptScalar outer t v = .ok w) : Keeps t w := by
  -- There is a case for each type and kind of value that it accepts, and one for the
  -- others, which are refused.
  unfold acceptScalar at h
  split at h
  · rw [← Except.ok.inj h]
    exact .string _
  · split at h
    · cases h
    · rw [← Except.ok.inj h]
      exact .fixedString _ _
  · exact keeps_of_acceptDate h
  · exact keeps_of_acceptDate h
  · rcases eq_dateTime_of_acceptInstant h with ⟨t, rfl⟩
    exact .dateTime _ t
  · rcases eq_dateTime_of_acceptInstant h with ⟨t, rfl⟩
    exact .dateTime64 _ _ t
  · exact keeps_of_acceptInteger h
  · rcases eq_float_of_acceptFloat h with ⟨x, rfl⟩
    exact .float32 x
  · rcases eq_float_of_acceptFloat h with ⟨x, rfl⟩
    exact .float64 x
  · -- What is no decimal is made one first.
    cases hd : toDecimal outer v with
    | error e =>
      rw [hd] at h
      cases h
    | ok d =>
      rw [hd] at h
      have haccept : acceptDecimal _ _ d = .ok w := h
      rcases of_acceptDecimal haccept with ⟨e, rfl, -⟩
      exact .decimal _ _ d e haccept
  · rw [← Except.ok.inj h]
    exact .bool _
  · rw [← Except.ok.inj h]
    exact .bool _
  · rw [← Except.ok.inj h]
    exact .bool _
  · exact keeps_of_toMember _ h
  · rw [← Except.ok.inj h]
    exact .uuid _
  · split at h
    · rw [← Except.ok.inj h]
      exact .uuid _
    · cases h
  · rw [← Except.ok.inj h]
    exact .ipv4 _
  · split at h
    · rw [← Except.ok.inj h]
      exact .ipv4 _
    · cases h
  · rw [← Except.ok.inj h]
    exact .ipv6 _
  · rw [← Except.ok.inj h]
    exact .ipv6 _
  · rw [← Except.ok.inj h]
    exact .json _
  · split at h
    · rw [← Except.ok.inj h]
      exact .json _
    · cases h
  · cases h

/-- No type keeps the absence of content. -/
theorem Keeps.ne_null {t : ColumnType} {w : Value} (h : Keeps t w) : w ≠ .null := by
  cases h with
  | word w n hn =>
    unfold Value.ofWord
    split
    · intro he
      cases he
    · intro he
      cases he
  | _ =>
    intro he
    cases he

/-- What a type accepts that is neither composite nor a wrapper becomes a value that it
    keeps. -/
theorem keeps_of_acceptAs {outer t : ColumnType} {v w : Value} (ht : IsScalar t)
    (h : acceptAs outer t v = .ok w) : Keeps t w := by
  -- The absence of content is refused before the type is looked at.
  by_cases hv : v = .null
  · subst hv
    cases t with
    | array | tuple | map | nullable | lowCardinality => cases ht
    | _ => cases h
  · cases t with
    | array | tuple | map | nullable | lowCardinality => cases ht
    | _ =>
      refine keeps_of_acceptScalar (?_ : acceptScalar outer _ v = .ok w)
      cases v with
      | null => exact absurd rfl hv
      | _ => exact h

/-- A column of arrays accepts arrays only, item by item. -/
theorem of_acceptAs_array {outer t : ColumnType} {v w : Value}
    (h : acceptAs outer (array t) v = .ok w) :
    ∃ items ws, List.mapM (acceptAs t t) items = .ok ws ∧ w = .array ws := by
  cases v with
  | array items =>
    unfold acceptAs at h
    cases hitems : items.mapM (acceptAs t t) with
    | error e =>
      rw [hitems] at h
      cases h
    | ok ws =>
      rw [hitems] at h
      exact ⟨items, ws, hitems, (Except.ok.inj h).symm⟩
  | _ => cases h

/-- A column of tuples accepts tuples of its length only, element by element. -/
theorem of_acceptAs_tuple {outer : ColumnType} {ts : List (Option String × ColumnType)}
    {v w : Value} (h : acceptAs outer (tuple ts) v = .ok w) :
    ∃ items ws, ts.length = items.length ∧ acceptElements ts items = .ok ws ∧
      w = .tuple ws := by
  cases v with
  | tuple items =>
    unfold acceptAs at h
    by_cases hlen : ts.length = items.length
    · rw [if_pos hlen] at h
      cases hitems : acceptElements ts items with
      | error e =>
        rw [hitems] at h
        cases h
      | ok ws =>
        rw [hitems] at h
        exact ⟨items, ws, hlen, hitems, (Except.ok.inj h).symm⟩
    · rw [if_neg hlen] at h
      cases h
  | _ => cases h

/-- A column of maps accepts maps only, entry by entry. -/
theorem of_acceptAs_map {outer k x : ColumnType} {v w : Value}
    (h : acceptAs outer (map k x) v = .ok w) :
    ∃ entries ws, List.mapM (fun e : Value × Value => do
        pure (← acceptAs k k e.1, ← acceptAs x x e.2)) entries = .ok ws ∧ w = .map ws := by
  cases v with
  | map entries =>
    unfold acceptAs at h
    cases hentries : List.mapM (fun e : Value × Value => do
        pure (← acceptAs k k e.1, ← acceptAs x x e.2)) entries with
    | error e =>
      rw [hentries] at h
      cases h
    | ok ws =>
      rw [hentries] at h
      exact ⟨entries, ws, hentries, (Except.ok.inj h).symm⟩
  | _ => cases h

/-- Content never becomes the absence of content. -/
theorem accept_ne_null (t : ColumnType) {outer : ColumnType} {v w : Value} (hv : v ≠ .null)
    (h : acceptAs outer t v = .ok w) : w ≠ .null := by
  induction t using mem_induction generalizing outer with
  | scalar t ht => exact (keeps_of_acceptAs ht h).ne_null
  | array t _ =>
    rcases of_acceptAs_array h with ⟨_, _, _, rfl⟩
    intro he
    cases he
  | tuple ts _ =>
    rcases of_acceptAs_tuple h with ⟨_, _, _, _, rfl⟩
    intro he
    cases he
  | map k x _ _ =>
    rcases of_acceptAs_map h with ⟨_, _, _, rfl⟩
    intro he
    cases he
  | nullable t ih =>
    -- The wrapper takes only the absence of content for itself.
    refine ih (?_ : acceptAs t t v = .ok w)
    cases v with
    | null => exact absurd rfl hv
    | _ => exact h
  | lowCardinality t ih => exact ih h

end ColumnType

end ColumnStore
