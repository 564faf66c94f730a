import ColumnStore.Proofs.Address.Reading
import ColumnStore.Proofs.ColumnType.RoundTrip
import ColumnStore.Proofs.Number.Real

/-!
# Values that Last

Of the scalars only two kinds are not always read back from their own texts. A leap
second has more nanoseconds than a second; and a document with a number that is not
whole may be read back as another one, since the reader of documents does not round a
number to the nearest one. All other numbers, identifiers and addresses last.

## Main definitions

* `Value.isLasting`: No leap second, and no document that changes when it is read back.

## Theorems

* `Value.isLegible_eq_isLasting`: Such values are read back from their texts.
-/

namespace ColumnStore

namespace Value

mutual

/-- Whether a value holds no leap second and no document that is not read back from its
    own text. -/
def isLasting : Value → Bool
  | dateTime t => t.nanos < 1000000000
  | json j => (Json.read? j.text).any fun k => k.agrees j
  | array items => listIsLasting items
  | tuple items => listIsLasting items
  | map entries => entriesAreLasting entries
  | _ => true

/-- The same for all items of a list. -/
def listIsLasting : List Value → Bool
  | [] => true
  | v :: vs => isLasting v && listIsLasting vs

/-- The same for all keys and values. -/
def entriesAreLasting : List (Value × Value) → Bool
  | [] => true
  | (k, v) :: es => isLasting k && isLasting v && entriesAreLasting es

end

mutual

/-- Nothing more is asked of the scalars in a value. -/
theorem isLegible_eq_isLasting : ∀ v : Value, v.isLegible = v.isLasting
  | float x => by simp [isLegible, isLasting, Binary64.read?_sql]
  | uuid u => by simp [isLegible, isLasting, Uuid.read?_text]
  | ipv4 a => by simp [isLegible, isLasting, Ipv4.read?_text]
  | ipv6 a => by simp [isLegible, isLasting, Ipv6.read?_text]
  | array items => listIsLegible_eq_listIsLasting items
  | tuple items => listIsLegible_eq_listIsLasting items
  | map entries => entriesAreLegible_eq_entriesAreLasting entries
  | null | bool _ | int _ | uint _ | decimal _ | string _ | date _ | dateTime _ | enum _
  | json _ => rfl

theorem listIsLegible_eq_listIsLasting : ∀ vs : List Value, listIsLegible vs = listIsLasting vs
  | [] => rfl
  | v :: vs => by
    rw [listIsLegible, listIsLasting, isLegible_eq_isLasting v, listIsLegible_eq_listIsLasting vs]

theorem entriesAreLegible_eq_entriesAreLasting : ∀ es : List (Value × Value),
    entriesAreLegible es = entriesAreLasting es
  | [] => rfl
  | (k, v) :: es => by
    rw [entriesAreLegible, entriesAreLasting, isLegible_eq_isLasting k, isLegible_eq_isLasting v,
      entriesAreLegible_eq_entriesAreLasting es]

end

end Value

end ColumnStore
