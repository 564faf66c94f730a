import ColumnStore.Proofs.Expr.Shape
import ColumnStore.Proofs.Lexical.Words
import ColumnStore.Proofs.Literal.Notation

/-!
# Literals of Values

Every value is written in a notation of one literal, which keeps the contents of all
scalars as they are and forgets nothing but the kinds of things: a number and a text
of the same digits are one scalar, and an array and a tuple of the same items are one
list.

## Main definitions

* `Value.literal`: The literal of a value.

## Theorems

* `Literal.notates_number`: Numbers are notations of scalars.
* `Value.notates_sql`: Values are written in notations of their literals.
* `Value.literal_eq_null_iff`, `Value.literal_eq_list_iff`,
  `Value.literal_eq_map_iff`: Which values share a kind of literal.
* `Value.read_sql`: What a value is written as is read as its literal, and nothing that is
  content is taken for anything of another kind.
-/

namespace ColumnStore

namespace Literal

open Text (Reader)
open Lexical (IsNumber isFigure)

/-- A word opens as a word by its first character alone, if no other notation starts
    with that character. -/
theorem opens_cons {c : Char} (hN : c ≠ 'N') (hbackslash : c ≠ '\\') (hm : c.toLower ≠ 'm')
    (ht : c.toLower ≠ 't') (w : List Char) : Opens (c :: w) := by
  intro r
  have hnull : Reader.exactly "NULL".toList (c :: (w ++ r)) = none := if_neg hN
  have hmark : Reader.exactly ['\\', 'N'] (c :: (w ++ r)) = none := if_neg hbackslash
  have hmap : Reader.ignoringCase "map".toList (c :: (w ++ r)) = none := if_neg hm
  have htuple : Reader.ignoringCase "tuple".toList (c :: (w ++ r)) = none := if_neg ht
  refine ⟨?_, hmap, htuple⟩
  rw [List.cons_append, nullReader, hnull, hmark]
  rfl

/-- The characters of a number. -/
def numberChars : List Char := "0123456789.-".toList

theorem mem_numberChars {c : Char} (h : isFigure c = true) : c ∈ numberChars := by
  simp only [isFigure, Bool.or_eq_true, decide_eq_true_eq] at h
  rcases h with h | rfl
  · rcases Number.toNat_of_isDigit h with ⟨hge, hle⟩
    have hcases : c.toNat = 48 ∨ c.toNat = 49 ∨ c.toNat = 50 ∨ c.toNat = 51 ∨ c.toNat = 52 ∨
        c.toNat = 53 ∨ c.toNat = 54 ∨ c.toNat = 55 ∨ c.toNat = 56 ∨ c.toNat = 57 := by omega
    rw [← Char.ofNat_toNat c]
    rcases hcases with hn | hn | hn | hn | hn | hn | hn | hn | hn | hn <;> rw [hn] <;> decide
  · decide

theorem isBare_of_mem_numberChars {c : Char} (h : c ∈ numberChars) : isBare c = true :=
  List.all_eq_true.1 (by decide : numberChars.all isBare = true) c h

/-- No other notation starts with a character of numbers. -/
theorem opens_of_mem_numberChars {c : Char} (h : c ∈ numberChars) (w : List Char) :
    Opens (c :: w) := by
  have hall := List.all_eq_true.1 (by decide : numberChars.all (fun c =>
    c ≠ 'N' && c ≠ '\\' && c.toLower ≠ 'm' && c.toLower ≠ 't') = true) c h
  simp only [Bool.and_eq_true, decide_eq_true_eq] at hall
  exact opens_cons hall.1.1.1 hall.1.1.2 hall.1.2 hall.2 w

/-- A number has no other characters. -/
theorem mem_numberChars_of_isNumber {s : List Char} (h : IsNumber s) {c : Char} (hc : c ∈ s) :
    c ∈ numberChars := by
  rcases h with ⟨w, hw, rfl | rfl⟩
  · exact mem_numberChars (hw.isFigure c hc)
  · rcases List.mem_cons.1 hc with rfl | hc
    · decide
    · exact mem_numberChars (hw.isFigure c hc)

/-- A number is the notation of a scalar. -/
theorem notates_number {s : List Char} (h : IsNumber s) :
    Notates s (scalar (String.ofList s)) := by
  cases s with
  | nil =>
    rcases h with ⟨w, hw, hs | hs⟩
    · exact absurd hs.symm hw.ne_nil
    · cases hs
  | cons c s =>
    have hbare : (c :: s).all isBare = true := List.all_eq_true.2 fun d hd =>
      isBare_of_mem_numberChars (mem_numberChars_of_isNumber h hd)
    exact notates_word (by simp) hbare
      (opens_of_mem_numberChars (mem_numberChars_of_isNumber h List.mem_cons_self) s)

/-- There is no white space in a number. -/
theorem trim_of_isNumber {s : List Char} (h : IsNumber s) : Text.trim s = s := by
  refine Text.trim_of_forall_isSpace fun c hc => ?_
  have hall := List.all_eq_true.1
    (by decide : numberChars.all (fun c => !Text.isSpace c) = true) c
      (mem_numberChars_of_isNumber h hc)
  simpa using hall

/-- The names of the floating-point numbers without digits are notations of scalars. -/
theorem notates_of_mem_names {s : List Char}
    (h : s ∈ ["nan".toList, "inf".toList, "-inf".toList]) :
    Notates s (scalar (String.ofList s)) := by
  simp only [List.mem_cons, List.not_mem_nil, or_false] at h
  rcases h with rfl | rfl | rfl
  · exact notates_word (by decide) (by decide)
      (opens_cons (by decide) (by decide) (by decide) (by decide) _)
  · exact notates_word (by decide) (by decide)
      (opens_cons (by decide) (by decide) (by decide) (by decide) _)
  · exact notates_word (by decide) (by decide)
      (opens_cons (by decide) (by decide) (by decide) (by decide) _)

/-- Truth values are notations of scalars. The word for truth starts like the call of a
    tuple and goes on in another way. -/
theorem notates_true : Notates "true".toList (scalar "true") :=
  notates_word (by decide) (by decide) fun _ => ⟨rfl, rfl, rfl⟩

theorem notates_false : Notates "false".toList (scalar "false") :=
  notates_word (by decide) (by decide) fun _ => ⟨rfl, rfl, rfl⟩

end Literal

namespace Value

open Literal (Notates)

mutual

/-- The literal that a value is written as. -/
def literal : Value → Literal
  | null => .null
  | bool true => .scalar "true"
  | bool false => .scalar "false"
  | int n => .scalar (String.ofList (Number.signed n.toInt))
  | uint n => .scalar (String.ofList (Number.digits n.toNat))
  | float x => .scalar (String.ofList x.sql)
  | decimal d => .scalar (String.ofList d.text)
  | string s => .scalar (String.ofList s.toList)
  | date d => .scalar (String.ofList d.text)
  | dateTime t => .scalar (String.ofList t.text)
  | uuid u => .scalar (String.ofList u.text)
  | ipv4 a => .scalar (String.ofList a.text)
  | ipv6 a => .scalar (String.ofList a.text)
  | enum name => .scalar (String.ofList name.toList)
  | array items => .list (listLiteral items)
  | tuple items => .list (listLiteral items)
  | map entries => .map (entriesLiteral entries)
  | json j => .scalar (String.ofList j.text)

/-- The literals of a list of values. -/
def listLiteral : List Value → List Literal
  | [] => []
  | x :: xs => literal x :: listLiteral xs

/-- The literals of keys and values. -/
def entriesLiteral : List (Value × Value) → List (Literal × Literal)
  | [] => []
  | (k, x) :: xs => (literal k, literal x) :: entriesLiteral xs

end

theorem listLiteral_eq_map (vs : List Value) : listLiteral vs = vs.map literal := by
  induction vs with
  | nil => rfl
  | cons v vs ih => rw [listLiteral, ih, List.map_cons]

theorem entriesLiteral_eq_map (entries : List (Value × Value)) :
    entriesLiteral entries = entries.map fun e => (e.1.literal, e.2.literal) := by
  induction entries with
  | nil => rfl
  | cons e es ih => rw [entriesLiteral, ih, List.map_cons]

/-- Every value is written in a notation of its literal. -/
theorem notates_sql (v : Value) : Notates v.sql v.literal := by
  induction v using Value.mem_induction with
  | null => exact Literal.notates_null
  | bool b =>
    cases b with
    | true => exact Literal.notates_true
    | false => exact Literal.notates_false
  | int n => exact Literal.notates_number (Lexical.isNumber_signed n.toInt)
  | uint n =>
    exact Literal.notates_number ⟨_, Lexical.isFigures_digits n.toNat, Or.inl rfl⟩
  | float x =>
    rcases Lexical.isNumber_float_or x with h | h
    · exact Literal.notates_number h
    · exact Literal.notates_of_mem_names h
  | decimal d => exact Literal.notates_number (Lexical.isNumber_decimal d)
  | string s => exact Literal.notates_quote s.toList
  | date d => exact Literal.notates_quote d.text
  | dateTime t => exact Literal.notates_quote t.text
  | uuid u => exact Literal.notates_quote u.text
  | ipv4 a => exact Literal.notates_quote a.text
  | ipv6 a => exact Literal.notates_quote a.text
  | enum name => exact Literal.notates_quote name.toList
  | json j => exact Literal.notates_quote j.text
  | array items ih =>
    rw [sql, literal, listSql_eq_map, listLiteral_eq_map]
    exact Literal.notates_array ih
  | tuple items ih =>
    rw [sql, literal, listSql_eq_map, listLiteral_eq_map]
    exact Literal.notates_tuple ih
  | map entries ih =>
    rw [sql, literal, entriesSql_eq_flatMap, entriesLiteral_eq_map]
    exact Literal.notates_map ih

/-! ## Kinds of literals -/

theorem literal_eq_null_iff (v : Value) : v.literal = .null ↔ v = .null := by
  constructor
  · intro h
    cases v with
    | null => rfl
    | bool b => cases b <;> cases h
    | _ => cases h
  · rintro rfl
    rfl

theorem literal_eq_list_iff (v : Value) (ls : List Literal) :
    v.literal = .list ls ↔
      ∃ items, (v = .array items ∨ v = .tuple items) ∧ ls = items.map literal := by
  constructor
  · intro h
    cases v with
    | array items =>
      refine ⟨items, Or.inl rfl, ?_⟩
      rw [← listLiteral_eq_map]
      exact (Literal.list.inj h).symm
    | tuple items =>
      refine ⟨items, Or.inr rfl, ?_⟩
      rw [← listLiteral_eq_map]
      exact (Literal.list.inj h).symm
    | bool b => cases b <;> cases h
    | _ => cases h
  · rintro ⟨items, rfl | rfl, rfl⟩ <;> rw [literal, listLiteral_eq_map]

theorem literal_eq_map_iff (v : Value) (ls : List (Literal × Literal)) :
    v.literal = .map ls ↔
      ∃ entries, v = .map entries ∧ ls = entries.map fun e => (e.1.literal, e.2.literal) := by
  constructor
  · intro h
    cases v with
    | map entries =>
      refine ⟨entries, rfl, ?_⟩
      rw [← entriesLiteral_eq_map]
      exact (Literal.map.inj h).symm
    | bool b => cases b <;> cases h
    | _ => cases h
  · rintro ⟨entries, rfl, rfl⟩
    rw [literal, entriesLiteral_eq_map]

/-- A scalar is written as its text, in quotes or without them. -/
theorem sql_of_literal_scalar {v : Value} {s : String} (h : v.literal = .scalar s) :
    v.sql = s.toList ∨ v.sql = Text.quote s.toList := by
  -- Both the literal and what is written are put together from one text.
  have hplain {w : List Char} (h : Literal.scalar (String.ofList w) = .scalar s) :
      s.toList = w := by
    rw [← Literal.scalar.inj h, String.toList_ofList]
  cases v with
  | null | array | tuple | map => cases h
  | bool b =>
    left
    cases b with
    | true => rw [← Literal.scalar.inj h, sql]
    | false => rw [← Literal.scalar.inj h, sql]
  | int n => exact Or.inl (hplain h).symm
  | uint n => exact Or.inl (hplain h).symm
  | float x => exact Or.inl (hplain h).symm
  | decimal d => exact Or.inl (hplain h).symm
  | string t => exact Or.inr (congrArg Text.quote (hplain h).symm)
  | enum name => exact Or.inr (congrArg Text.quote (hplain h).symm)
  | date d => exact Or.inr (congrArg Text.quote (hplain h).symm)
  | dateTime t => exact Or.inr (congrArg Text.quote (hplain h).symm)
  | uuid u => exact Or.inr (congrArg Text.quote (hplain h).symm)
  | ipv4 a => exact Or.inr (congrArg Text.quote (hplain h).symm)
  | ipv6 a => exact Or.inr (congrArg Text.quote (hplain h).symm)
  | json j => exact Or.inr (congrArg Text.quote (hplain h).symm)

/-- What a value is written as is read as the literal of the value. The literal says
    whether there is content, keeps the texts of scalars without their quotes, the contents
    of texts and of names of members as they are, and the order of items and of entries;
    whatever a text holds, it is a scalar. -/
theorem read_sql (v : Value) :
    Literal.read v.sql = .ok v.literal ∧
      (v.literal = .null ↔ v = .null) ∧
      (∀ s, v = .string s ∨ v = .enum s → v.literal = .scalar s) ∧
      (∀ s, v.literal = .scalar s → v.sql = s.toList ∨ v.sql = Text.quote s.toList) ∧
      (∀ ls, v.literal = .list ls ↔
        ∃ items, (v = .array items ∨ v = .tuple items) ∧ ls = items.map literal) ∧
      (∀ ls, v.literal = .map ls ↔
        ∃ entries, v = .map entries ∧
          ls = entries.map fun e => (e.1.literal, e.2.literal)) := by
  refine ⟨Literal.read_of_notates v.notates_sql, v.literal_eq_null_iff, ?_,
    fun _ => sql_of_literal_scalar, v.literal_eq_list_iff, v.literal_eq_map_iff⟩
  rintro s (rfl | rfl) <;> rw [literal, String.ofList_toList]

/-- A text that spells the absence of content, brackets and all, is still a text. -/
example : Literal.read (Value.sql (.tuple [.string "NULL", .array [], .string "[1, 2]"])) =
    .ok (.list [.scalar "NULL", .list [], .scalar "[1, 2]"]) := by rfl

end Value

end ColumnStore
