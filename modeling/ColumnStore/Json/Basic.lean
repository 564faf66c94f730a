import ColumnStore.Number.Binary64

/-!
# JSON Documents

The documents that a column of type `JSON` holds. A number is either whole and
within the range of 64-bit words, signed or unsigned, or a double-precision
number; which of the two it is belongs to the value, so `1` and `1.0` differ.
The members of an object are kept in the order of their keys, one for each key.

## Main definitions

* `Json`: A document.
* `Json.agrees`: Equality of documents, where the two zeros agree.
-/

namespace ColumnStore

/-- A JSON document. -/
inductive Json
  /-- The constant `null`. -/
  | null
  /-- A truth value. -/
  | bool (b : Bool)
  /-- A whole number within the range of 64-bit words. -/
  | whole (n : Int)
  /-- Any other number. -/
  | real (x : Binary64)
  /-- A string. -/
  | string (s : String)
  /-- An array. -/
  | array (items : List Json)
  /-- An object, with its members in the order of their keys. -/
  | object (members : List (String × Json))

namespace Json

mutual

/-- Equality of documents. Numbers agree as numbers of the same kind. -/
def agrees : Json → Json → Bool
  | null, null => true
  | bool a, bool b => a = b
  | whole m, whole n => m = n
  | real x, real y => x.agrees y
  | string s, string t => s = t
  | array xs, array ys => itemsAgree xs ys
  | object ms, object ns => membersAgree ms ns
  | _, _ => false

/-- Equality of the items of two arrays. -/
def itemsAgree : List Json → List Json → Bool
  | [], [] => true
  | x :: xs, y :: ys => agrees x y && itemsAgree xs ys
  | _, _ => false

/-- Equality of the members of two objects. -/
def membersAgree : List (String × Json) → List (String × Json) → Bool
  | [], [] => true
  | (k, x) :: ms, (l, y) :: ns => k = l && agrees x y && membersAgree ms ns
  | _, _ => false

end

end Json

end ColumnStore
