import ColumnStore.Proofs.ColumnType.Kept
import ColumnStore.Proofs.Except.Basic

/-!
# Values Inside of Values

A composite value has other values inside, and its type has their types at the same
positions. A position is told by a path, one step for each composite that is entered. Types
that wrap others leave no trace in a value, so a path passes through them without a step.

What a type makes of a composite value it makes part by part. So if a value is accepted,
then what it becomes has a value wherever the first one had one, and that is what the type
at this position makes of it. A statement about all parts of a value is reduced by this to
one about values that stand alone.

## Main definitions

* `PathStep`: A step from a composite to one of its parts.
* `Value.inside?`: The value at the end of a path.
* `ColumnType.unwrapped`, `ColumnType.inside?`: The type at the end of a path.

## Theorems

* `ColumnType.exists_inside_of_acceptAs`: What becomes of a part of a value.
-/

namespace ColumnStore

/-- A step from a composite to one of its parts. -/
inductive PathStep
  /-- To an item of an array. -/
  | item (i : Nat)
  /-- To an element of a tuple. -/
  | element (i : Nat)
  /-- To the key of an entry of a map. -/
  | key (i : Nat)
  /-- To the value of an entry of a map. -/
  | content (i : Nat)
  deriving DecidableEq

/-- The part of a value to which a step leads. -/
def Value.part? : Value → PathStep → Option Value
  | .array items, .item i => items[i]?
  | .tuple items, .element i => items[i]?
  | .map entries, .key i => entries[i]?.map (·.1)
  | .map entries, .content i => entries[i]?.map (·.2)
  | _, _ => none

/-- The value at the end of a path. -/
def Value.inside? (v : Value) (path : List PathStep) : Option Value :=
  path.foldlM Value.part? v

namespace ColumnType

/-- A type without its wrappers. -/
def unwrapped : ColumnType → ColumnType
  | lowCardinality t => unwrapped t
  | nullable t => unwrapped t
  | t => t

/-- The type of the parts to which a step leads. -/
def part? (t : ColumnType) (step : PathStep) : Option ColumnType :=
  match t.unwrapped, step with
  | array t, .item _ => some t
  | tuple ts, .element i => ts[i]?.map (·.2)
  | map k _, .key _ => some k
  | map _ x, .content _ => some x
  | _, _ => none

/-- The type at the end of a path, without wrappers. -/
def inside? (t : ColumnType) (path : List PathStep) : Option ColumnType :=
  (path.foldlM part? t).map unwrapped

variable {v w : Value}

theorem acceptAs_nullable {outer t : ColumnType} (hv : v ≠ .null) :
    acceptAs outer (nullable t) v = acceptAs t t v := by
  cases v with
  | null => exact absurd rfl hv
  | _ => rfl

/-- Wrappers accept content as what they enclose does. -/
theorem exists_acceptAs_unwrapped {outer t : ColumnType} (hv : v ≠ .null)
    (h : acceptAs outer t v = .ok w) : ∃ o, acceptAs o t.unwrapped v = .ok w := by
  induction t using mem_induction generalizing outer with
  | scalar t ht =>
    cases t with
    | array | tuple | map | nullable | lowCardinality => cases ht
    | _ => exact ⟨outer, h⟩
  | array t _ => exact ⟨outer, h⟩
  | tuple ts _ => exact ⟨outer, h⟩
  | map k x _ _ => exact ⟨outer, h⟩
  | nullable t ih =>
    rw [acceptAs_nullable hv] at h
    exact ih h
  | lowCardinality t ih => exact ih h

/-- What the elements of a tuple become, element by element. -/
theorem getElem?_of_acceptElements {ts : List (Option String × ColumnType)} {vs ws : List Value}
    (h : acceptElements ts vs = .ok ws) {i : Nat} {e : Option String × ColumnType} {x : Value}
    (he : ts[i]? = some e) (hx : vs[i]? = some x) :
    ∃ y, ws[i]? = some y ∧ acceptAs e.2 e.2 x = .ok y := by
  induction ts generalizing vs ws i with
  | nil => cases he
  | cons t ts ih =>
    cases vs with
    | nil => cases hx
    | cons v vs =>
      rw [acceptElements] at h
      rcases of_bind_eq_ok h with ⟨w, hv, hrest⟩
      rcases of_bind_eq_ok hrest with ⟨ws', hvs, hws⟩
      cases hws
      cases i with
      | zero =>
        cases he
        cases hx
        exact ⟨w, rfl, hv⟩
      | succ i => exact ih hvs he hx

/-- What the entries of a map become, entry by entry. -/
theorem getElem?_of_acceptAs_map {outer k x : ColumnType} {entries : List (Value × Value)}
    (h : acceptAs outer (map k x) (.map entries) = .ok w) {i : Nat} {e : Value × Value}
    (he : entries[i]? = some e) :
    ∃ ws e', w = .map ws ∧ ws[i]? = some e' ∧ acceptAs k k e.1 = .ok e'.1 ∧
      acceptAs x x e.2 = .ok e'.2 := by
  rcases of_map_eq_ok h with ⟨ws, hentries, rfl⟩
  rcases getElem?_of_mapM hentries he with ⟨e', he', hentry⟩
  rcases of_bind_eq_ok hentry with ⟨u, hkey, hrest⟩
  rcases of_bind_eq_ok hrest with ⟨y, hcontent, hpair⟩
  cases hpair
  exact ⟨ws, _, rfl, he', hkey, hcontent⟩

/-- What becomes of a composite value has the parts that the type makes of its parts. -/
theorem exists_part_of_acceptAs {outer t s : ColumnType} {x : Value} {step : PathStep}
    (h : acceptAs outer t v = .ok w) (ht : t.part? step = some s) (hv : v.part? step = some x) :
    ∃ y, w.part? step = some y ∧ ∃ o, acceptAs o s x = .ok y := by
  have hne : v ≠ .null := by
    rintro rfl
    cases hv
  rcases exists_acceptAs_unwrapped hne h with ⟨o, hunwrapped⟩
  unfold part? at ht
  generalize t.unwrapped = u at ht hunwrapped
  -- Only composites have parts, and they are accepted part by part.
  cases step with
  | item i =>
    cases u with
    | array t =>
      cases ht
      cases v with
      | array items =>
        rcases of_map_eq_ok hunwrapped with ⟨ws, hitems, rfl⟩
        rcases getElem?_of_mapM hitems hv with ⟨y, hy, hxy⟩
        exact ⟨y, hy, _, hxy⟩
      | _ => cases hv
    | _ => cases ht
  | element i =>
    cases u with
    | tuple ts =>
      rcases Option.map_eq_some_iff.1 ht with ⟨e, he, rfl⟩
      cases v with
      | tuple items =>
        unfold acceptAs at hunwrapped
        by_cases hlength : ts.length = items.length
        · rw [if_pos hlength] at hunwrapped
          rcases of_map_eq_ok hunwrapped with ⟨ws, hitems, rfl⟩
          rcases getElem?_of_acceptElements hitems he hv with ⟨y, hy, hxy⟩
          exact ⟨y, hy, _, hxy⟩
        · rw [if_neg hlength] at hunwrapped
          cases hunwrapped
      | _ => cases hv
    | _ => cases ht
  | key i =>
    cases u with
    | map k z =>
      cases ht
      cases v with
      | map entries =>
        rcases Option.map_eq_some_iff.1 hv with ⟨e, he, rfl⟩
        rcases getElem?_of_acceptAs_map hunwrapped he with ⟨ws, e', rfl, he', hkey, -⟩
        exact ⟨e'.1, Option.map_eq_some_iff.2 ⟨e', he', rfl⟩, _, hkey⟩
      | _ => cases hv
    | _ => cases ht
  | content i =>
    cases u with
    | map k z =>
      cases ht
      cases v with
      | map entries =>
        rcases Option.map_eq_some_iff.1 hv with ⟨e, he, rfl⟩
        rcases getElem?_of_acceptAs_map hunwrapped he with ⟨ws, e', rfl, he', -, hcontent⟩
        exact ⟨e'.2, Option.map_eq_some_iff.2 ⟨e', he', rfl⟩, _, hcontent⟩
      | _ => cases hv
    | _ => cases ht

/-- What is accepted has, at each position that holds content, become what the type at this
    position makes of that content. -/
theorem exists_inside_of_acceptAs {outer t s : ColumnType} {x : Value} {path : List PathStep}
    (h : acceptAs outer t v = .ok w) (ht : t.inside? path = some s) (hv : v.inside? path = some x)
    (hx : x ≠ .null) : ∃ y, w.inside? path = some y ∧ ∃ o, acceptAs o s x = .ok y := by
  unfold inside? at ht
  unfold Value.inside? at hv ⊢
  -- Induction on the path, from the outermost composite on.
  induction path generalizing outer t v w with
  | nil =>
    cases ht
    cases hv
    exact ⟨w, rfl, exists_acceptAs_unwrapped hx h⟩
  | cons step path ih =>
    rw [List.foldlM_cons] at ht hv ⊢
    cases hpart : v.part? step with
    | none =>
      rw [hpart] at hv
      cases hv
    | some v' =>
      cases htype : t.part? step with
      | none =>
        rw [htype] at ht
        cases ht
      | some t' =>
        rw [hpart] at hv
        rw [htype] at ht
        rcases exists_part_of_acceptAs h htype hpart with ⟨w', hw, o, hpartial⟩
        rw [hw]
        exact ih hpartial ht hv

end ColumnType

end ColumnStore
