import ColumnStore.ColumnType.Encode
import ColumnStore.Proofs.Literal.Values

/-!
# Literals of Values of a Type

Induction over types with the elements of a tuple as members of it, and the literals
that values of a type are written as. What is written is a notation of its literal
for every type and every value, whether they fit each other or not.

## Main definitions

* `ColumnType.IsScalar`: A type that is neither composite nor a wrapper.
* `ColumnType.literalOf`: The literal of a value of a type.

## Theorems

* `ColumnType.mem_induction`: Induction over types.
* `ColumnType.notates_sqlOf`: Values of a type are written in notations of their
  literals.
-/

namespace ColumnStore

namespace ColumnType

/-- A type that is neither composite nor a wrapper of another one. -/
def IsScalar : ColumnType → Prop
  | array _ => False
  | tuple _ => False
  | map _ _ => False
  | nullable _ => False
  | lowCardinality _ => False
  | _ => True

/-- Induction over types, those that are neither composite nor wrappers taken
    together. -/
theorem mem_induction {motive : ColumnType → Prop} (scalar : ∀ t, IsScalar t → motive t)
    (array : ∀ t, motive t → motive (array t))
    (tuple : ∀ ts, (∀ e ∈ ts, motive e.2) → motive (tuple ts))
    (map : ∀ k v, motive k → motive v → motive (map k v))
    (nullable : ∀ t, motive t → motive (nullable t))
    (lowCardinality : ∀ t, motive t → motive (lowCardinality t)) : ∀ t, motive t
  | .string => scalar _ trivial
  | .fixedString _ => scalar _ trivial
  | .date => scalar _ trivial
  | .dateTime _ => scalar _ trivial
  | .dateTime64 _ _ => scalar _ trivial
  | .word _ => scalar _ trivial
  | .float32 => scalar _ trivial
  | .float64 => scalar _ trivial
  | .decimal _ _ => scalar _ trivial
  | .bool => scalar _ trivial
  | .enum _ _ => scalar _ trivial
  | .uuid => scalar _ trivial
  | .ipv4 => scalar _ trivial
  | .ipv6 => scalar _ trivial
  | .json => scalar _ trivial
  | .array t => array t (mem_induction scalar array tuple map nullable lowCardinality t)
  | .tuple ts => tuple ts fun e _ =>
      mem_induction scalar array tuple map nullable lowCardinality e.2
  | .map k v => map k v (mem_induction scalar array tuple map nullable lowCardinality k)
      (mem_induction scalar array tuple map nullable lowCardinality v)
  | .nullable t => nullable t (mem_induction scalar array tuple map nullable lowCardinality t)
  | .lowCardinality t =>
      lowCardinality t (mem_induction scalar array tuple map nullable lowCardinality t)
termination_by t => sizeOf t
decreasing_by
  · simp only [ColumnType.array.sizeOf_spec]
    omega
  · have hmem := List.sizeOf_lt_of_mem ‹e ∈ ts›
    have hpair : sizeOf e = 1 + sizeOf e.1 + sizeOf e.2 := rfl
    simp only [ColumnType.tuple.sizeOf_spec]
    omega
  · simp only [ColumnType.map.sizeOf_spec]
    omega
  · simp only [ColumnType.map.sizeOf_spec]
    omega
  · simp only [ColumnType.nullable.sizeOf_spec]
    omega
  · simp only [ColumnType.lowCardinality.sizeOf_spec]
    omega

mutual

/-- The literal that a value of a type is written as. -/
def literalOf : ColumnType → Value → Literal
  | lowCardinality t, v => literalOf t v
  | nullable _, .null => .null
  | nullable t, v => literalOf t v
  | dateTime _, .dateTime t => .scalar (String.ofList (t.fixed 0))
  | dateTime64 p _, .dateTime t => .scalar (String.ofList (t.fixed p.toNat))
  | array t, .array items => .list (items.map (literalOf t))
  | tuple ts, .tuple items => .list (elementsLiteral ts items)
  | map k v, .map entries => .map (entries.map fun (x, y) => (literalOf k x, literalOf v y))
  | _, v => v.literal

/-- The literals of the elements of a tuple. -/
def elementsLiteral : List (Option String × ColumnType) → List Value → List Literal
  | (_, t) :: ts, v :: vs => literalOf t v :: elementsLiteral ts vs
  | _, _ => []

end

theorem elementsSql_eq_map (ts : List (Option String × ColumnType)) (vs : List Value) :
    elementsSql ts vs = (ts.zip vs).map fun p => p.1.2.sqlOf p.2 := by
  induction ts generalizing vs with
  | nil => rfl
  | cons t ts ih =>
    cases vs with
    | nil => rfl
    | cons v vs => rw [elementsSql, ih, List.zip_cons_cons, List.map_cons]

theorem elementsLiteral_eq_map (ts : List (Option String × ColumnType)) (vs : List Value) :
    elementsLiteral ts vs = (ts.zip vs).map fun p => p.1.2.literalOf p.2 := by
  induction ts generalizing vs with
  | nil => rfl
  | cons t ts ih =>
    cases vs with
    | nil => rfl
    | cons v vs => rw [elementsLiteral, ih, List.zip_cons_cons, List.map_cons]

/-- Whatever the type and the value, what is written is a notation of the literal. -/
theorem notates_sqlOf (t : ColumnType) (v : Value) : Literal.Notates (t.sqlOf v) (t.literalOf v) := by
  -- Where the value does not fit the type, it is written as if it had none.
  induction t using mem_induction generalizing v with
  | scalar t ht =>
    cases t with
    | dateTime zone =>
      cases v with
      | dateTime t => exact Literal.notates_quote (t.fixed 0)
      | _ => exact Value.notates_sql _
    | dateTime64 p zone =>
      cases v with
      | dateTime t => exact Literal.notates_quote (t.fixed p.toNat)
      | _ => exact Value.notates_sql _
    | array | tuple | map | nullable | lowCardinality => cases ht
    | _ => exact Value.notates_sql v
  | array t ih =>
    cases v with
    | array items => exact Literal.notates_array fun v _ => ih v
    | _ => exact Value.notates_sql _
  | tuple ts ih =>
    cases v with
    | tuple items =>
      rw [sqlOf, literalOf, elementsSql_eq_map, elementsLiteral_eq_map]
      exact Literal.notates_tuple fun p hp => ih p.1 (List.of_mem_zip hp).1 p.2
    | _ => exact Value.notates_sql _
  | map k x ihk ihx =>
    cases v with
    | map entries => exact Literal.notates_map fun e _ => ⟨ihk e.1, ihx e.2⟩
    | _ => exact Value.notates_sql _
  | nullable t ih =>
    cases v with
    | null => exact Literal.notates_null
    | _ => exact ih _
  | lowCardinality t ih => exact ih v

end ColumnType

end ColumnStore
