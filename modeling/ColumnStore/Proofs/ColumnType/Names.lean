import ColumnStore.ColumnType.Reader
import ColumnStore.Proofs.ColumnType.Shape
import ColumnStore.Proofs.Number.Whole
import ColumnStore.Proofs.Text.Reader
import Mathlib.Data.Option.Basic

/-!
# Reading Type Names Back

The name of a type is read as the type, if the name can be read at all: an enumeration
without members, a tuple without elements, and a tuple with an element whose name is
not a word have names that nothing is read from. No text is read as such a type, so
what was read once, in whatever spelling, keeps its meaning when it is written anew.

A name is read wherever it stands, as long as what follows does not run on with it. The
words that names start with are prefixes of each other, so it is the end of a word that
tells the alternatives apart.

## Main definitions

* `ColumnType.isNameable`: A type whose name can be read.
* `ColumnType.Stops`: What a type name does not run on with.
* `ColumnType.Names`: A text is a name of a type wherever it stands.

## Theorems

* `ColumnType.names_name`: The name of a type is a name of it.
* `ColumnType.isNameable_of_readerTo`: Only types with such names are read.
* `ColumnType.read_name_iff`: A type is read from its own name just if it is read from
  any.
-/

namespace ColumnStore

namespace ColumnType

open Text (Reader)

/-- Whether a name of an element is a word. -/
def isWord (name : List Char) : Bool :=
  !name.isEmpty && name.all isNameChar

mutual

/-- Whether the name of a type can be read. -/
def isNameable : ColumnType → Bool
  | enum _ members => !members.isEmpty
  | array t => isNameable t
  | tuple ts => !ts.isEmpty && elementsAreNameable ts
  | map k v => isNameable k && isNameable v
  | nullable t => isNameable t
  | lowCardinality t => isNameable t
  | _ => true

/-- Whether the names of the elements of a tuple can be read. -/
def elementsAreNameable : List (Option String × ColumnType) → Bool
  | [] => true
  | (name, t) :: ts =>
    name.all (fun n => isWord n.toList) && isNameable t && elementsAreNameable ts

end

theorem elementsAreNameable_eq_all (ts : List (Option String × ColumnType)) :
    elementsAreNameable ts =
      ts.all fun e => e.1.all (fun n => isWord n.toList) && e.2.isNameable := by
  induction ts with
  | nil => rfl
  | cons e ts ih => rw [elementsAreNameable, ih, List.all_cons]

theorem isWord_iff {w : List Char} : isWord w = true ↔ w ≠ [] ∧ ∀ c ∈ w, isNameChar c = true := by
  simp [isWord]

theorem isBlank_of_isNameChar {c : Char} (h : isNameChar c = true) : Text.isBlank c = false := by
  cases hblank : Text.isBlank c with
  | false => rfl
  | true =>
    simp only [Text.isBlank, Bool.or_eq_true, decide_eq_true_eq] at hblank
    rcases hblank with ((rfl | rfl) | rfl) | rfl <;> exact absurd h (by decide)

theorem skipBlanks_word {w : List Char} (hw : isWord w = true) (r : List Char) :
    Text.skipBlanks (w ++ r) = w ++ r := by
  rcases isWord_iff.1 hw with ⟨hne, hall⟩
  cases w with
  | nil => exact absurd rfl hne
  | cons c w => exact Text.skipBlanks_cons (isBlank_of_isNameChar (hall c List.mem_cons_self)) _

/-! ## Words and what follows them -/

/-- What a type name does not run on with: nothing, or a character that is neither one
    of a name nor a blank nor an opening bracket. -/
def Stops (rest : List Char) : Prop :=
  ∀ c ∈ rest.head?, isNameChar c = false ∧ Text.isBlank c = false ∧ c ≠ '('

theorem stops_nil : Stops [] := by
  intro c hc
  cases hc

theorem stops_mark {d : Char} (hd : d = ',' ∨ d = ')') (r : List Char) : Stops (d :: r) := by
  intro c hc
  rw [← Option.some.inj hc]
  rcases hd with rfl | rfl <;> decide

/-- A word is no call of another word, and no call at all where no bracket follows. -/
theorem appliedReader_eq_none {α : Type} {head : String} (arguments : Reader α)
    {w r : List Char} (hhead : isWord head.toList = true)
    (hw : ∀ c ∈ w, isNameChar c = true) (hr : ∀ c ∈ r.head?, isNameChar c = false)
    (hne : head.toList ≠ w ∨ ∀ c ∈ r.head?, c ≠ '(') :
    appliedReader head arguments (w ++ r) = none := by
  rw [appliedReader]
  cases hexactly : Reader.exactly head.toList (w ++ r) with
  | none => rfl
  | some found =>
    rcases found with ⟨_, r'⟩
    have heq := Reader.eq_append_of_exactly hexactly
    simp only [Option.bind_eq_bind, Option.bind_some]
    by_cases hbracket : r'.head? = some '('
    · -- Both words end where the bracket stands, so that they are one.
      exfalso
      have hr' : ∀ c ∈ r'.head?, isNameChar c = false := by
        intro c hc
        rw [hbracket] at hc
        rw [← Option.some.inj hc]
        decide
      have hsame : w = head.toList := by
        rw [← (Text.span_append hw hr).1, heq, (Text.span_append (isWord_iff.1 hhead).2 hr').1]
      rw [hsame] at heq
      rcases hne with hne | hne
      · exact hne hsame.symm
      · rw [List.append_cancel_left heq] at hne
        exact hne '(' hbracket rfl
    · cases r' with
      | nil => rfl
      | cons c r' =>
        have hc : c ≠ '(' := fun hc => hbracket (congrArg some hc)
        rw [Reader.enclosed, Reader.char_cons_of_ne hc]
        rfl

/-- A word that nothing is called by is read as the type that it means. -/
theorem readerTo_of_word {w rest : List Char} {t : ColumnType} (hw : isWord w = true)
    (ht : simple? (String.ofList w) = some t)
    (hrest : ∀ c ∈ rest.head?, isNameChar c = false ∧ c ≠ '(') (depth : Nat) :
    readerTo (depth + 1) (w ++ rest) = some (t, Text.skipBlanks rest) := by
  rcases isWord_iff.1 hw with ⟨hne, hall⟩
  have hnone {α : Type} (head : String) (arguments : Reader α)
      (hhead : isWord head.toList = true) :
      appliedReader head arguments (w ++ rest) = none :=
    appliedReader_eq_none arguments hhead hall (fun c hc => (hrest c hc).1)
      (Or.inr fun c hc => (hrest c hc).2)
  have hsimple : simpleReader (w ++ rest) = some (t, Text.skipBlanks rest) := by
    rw [simpleReader, nameReader, Reader.while1_append hne hall fun c hc => (hrest c hc).1]
    simp only [Option.bind_eq_bind, Option.bind_some, ht, Option.pure_def]
  -- None of the other alternatives does without a bracket.
  simp only [readerTo, enumReader, sizedDecimalReader, decimalReader, dateTime64Reader,
    zonedDateTimeReader, fixedStringReader, hnone "Nullable" _ rfl,
    hnone "LowCardinality" _ rfl, hnone "Array" _ rfl, hnone "Map" _ rfl,
    hnone "Tuple" _ rfl, hnone "Enum8" _ rfl, hnone "Enum16" _ rfl,
    hnone "Decimal32" _ rfl, hnone "Decimal64" _ rfl,
    hnone "Decimal128" _ rfl, hnone "Decimal" _ rfl,
    hnone "DateTime64" _ rfl, hnone "DateTime" _ rfl,
    hnone "FixedString" _ rfl, Option.map_none, hsimple]
  rfl

/-- A word that stands alone is read up to its end. -/
theorem readerTo_of_simple {w rest : List Char} {t : ColumnType} (hw : isWord w = true)
    (ht : simple? (String.ofList w) = some t) (hrest : Stops rest) (depth : Nat) :
    readerTo (depth + 1) (w ++ rest) = some (t, rest) := by
  have hskip : Text.skipBlanks rest = rest := by
    cases rest with
    | nil => rfl
    | cons c r => exact Text.skipBlanks_cons (hrest c rfl).2.1 r
  rw [readerTo_of_word hw ht (fun c hc => ⟨(hrest c hc).1, (hrest c hc).2.2⟩) depth, hskip]

/-! ## Arguments -/

theorem applied_append (head : List Char) (arguments : List (List Char)) (rest : List Char) :
    applied head arguments ++ rest = head ++ '(' :: (commaSeparated arguments ++ ')' :: rest) := by
  simp [applied]

/-- A call is read if its arguments are read up to the closing bracket. -/
theorem appliedReader_append {α : Type} {arguments : Reader α} {s : List Char} {x : α}
    {rest : List Char} (head : String) (hskip : Text.skipBlanks s = s)
    (hread : arguments s = some (x, ')' :: rest)) :
    appliedReader head arguments (head.toList ++ '(' :: s) = some (x, rest) := by
  rw [appliedReader, Reader.exactly_append]
  simp only [Option.bind_eq_bind, Option.bind_some, Reader.enclosed, Reader.char_cons,
    Reader.spaced, hskip, hread, Text.skipBlanks_cons (c := ')') rfl]
  rfl

theorem comma_cons (s : List Char) :
    comma (',' :: ' ' :: s) = some ((), Text.skipBlanks s) :=
  rfl

theorem comma_closing (rest : List Char) : comma (')' :: rest) = none :=
  rfl

theorem commaSeparated_singleton (s : List Char) : commaSeparated [s] = s := by
  simp [commaSeparated, List.intercalate]

theorem commaSeparated_pair (s t : List Char) :
    commaSeparated [s, t] = s ++ ',' :: ' ' :: t := by
  simp [commaSeparated_cons]

theorem skipBlanks_digits (n : Nat) (r : List Char) :
    Text.skipBlanks (Number.digits n ++ r) = Number.digits n ++ r := by
  cases hs : Number.digits n with
  | nil => exact absurd hs (Number.digits_ne_nil n)
  | cons c s =>
    have hc : c.isDigit = true := Number.isDigit_of_mem_digits (hs ▸ List.mem_cons_self)
    refine Text.skipBlanks_cons ?_ (s ++ r)
    cases hblank : Text.isBlank c with
    | false => rfl
    | true =>
      have hspace := Text.isSpace_of_isDigit hc
      rw [Text.isSpace_of_isBlank hblank] at hspace
      exact hspace

theorem skipBlanks_signed (n : Int) (r : List Char) :
    Text.skipBlanks (Number.signed n ++ r) = Number.signed n ++ r := by
  unfold Number.signed
  by_cases hn : n < 0
  · rw [if_pos hn]
    rfl
  · rw [if_neg hn]
    exact skipBlanks_digits n.natAbs r

theorem integerReader_signed {lo hi n : Int} (hlo : lo ≤ n) (hhi : n ≤ hi) {r : List Char}
    (hr : ∀ c ∈ r.head?, c.isDigit = false) :
    integerReader lo hi (Number.signed n ++ r) = some (n, r) := by
  have hdigits : Reader.while1 Char.isDigit (Number.digits n.natAbs ++ r) =
      some (Number.digits n.natAbs, r) :=
    Reader.while1_append (Number.digits_ne_nil _) (fun c hc => Number.isDigit_of_mem_digits hc) hr
  unfold Number.signed
  by_cases hn : n < 0
  · -- Below zero there is a sign, which is refused only where nothing is below zero.
    have habs : (-(n.natAbs : Int)) = n := by omega
    have hzero : lo ≠ 0 := by omega
    rw [if_pos hn, List.cons_append]
    simp only [integerReader, Option.bind_eq_bind, hdigits, Option.bind_some,
      Number.ofDigits_digits, if_true, habs, hzero, decide_false, Bool.and_false]
    simp [hlo, hhi]
  · have habs : (n.natAbs : Int) = n := by omega
    rw [if_neg hn, integerReader]
    · -- Without a sign the digits are read at once, since none of them is one.
      simp only [Option.bind_eq_bind, hdigits, Option.bind_some, Number.ofDigits_digits, habs]
      simp [hlo, hhi]
    · intro r' h
      exact Number.append_ne_cons (Number.digits_ne_nil _)
        (fun c hc => Number.isDigit_of_mem_digits hc) (by decide) h

theorem integerReader_digits {hi : Int} {n : Nat} (hhi : (n : Int) ≤ hi) {r : List Char}
    (hr : ∀ c ∈ r.head?, c.isDigit = false) :
    integerReader 0 hi (Number.digits n ++ r) = some ((n : Int), r) := by
  have hsigned : Number.signed (n : Int) = Number.digits n := by
    rw [Number.signed, if_neg (by omega), Int.natAbs_natCast]
  rw [← hsigned]
  exact integerReader_signed (by omega) hhi hr

theorem byteReader_digits (n : UInt8) {r : List Char} (hr : ∀ c ∈ r.head?, c.isDigit = false) :
    byteReader (Number.digits n.toNat ++ r) = some (n, r) := by
  have hn := n.toNat_lt
  rw [byteReader, integerReader_digits (by omega) hr, Option.map_some]
  simp only [Int.toNat_natCast, UInt8.ofNat_toNat]

theorem quotedReader_quote (name : String) {r : List Char} (hr : ∀ c ∈ r.head?, c ≠ '\x27') :
    quotedReader (Text.quote name.toList ++ r) = some (name, r) := by
  rw [quotedReader, Text.readQuoted_quote name.toList hr, Option.map_some]
  simp only [String.ofList_toList]

/-- The text of a member of an enumeration. -/
def memberText (m : String × Int16) : List Char :=
  Text.quote m.1.toList ++ ' ' :: '=' :: ' ' :: Number.signed m.2.toInt

theorem memberReader_append (m : String × Int16) {r : List Char}
    (hr : ∀ c ∈ r.head?, c.isDigit = false) : memberReader (memberText m ++ r) = some (m, r) := by
  have hlo : (-32768 : Int) ≤ m.2.toInt := m.2.le_toInt
  have hhi : m.2.toInt ≤ (32767 : Int) := Int.le_of_lt_add_one m.2.toInt_lt
  have hmark (s : List Char) : Reader.mark '=' (' ' :: '=' :: ' ' :: s) =
      some ((), Text.skipBlanks s) := rfl
  have htext : memberText m ++ r =
      Text.quote m.1.toList ++ ' ' :: '=' :: ' ' :: (Number.signed m.2.toInt ++ r) := by
    simp [memberText]
  rw [htext, memberReader, Reader.pairOf, quotedReader_quote m.1 (by simp)]
  simp only [Option.bind_eq_bind, Option.bind_some, hmark, skipBlanks_signed,
    integerReader_signed hlo hhi hr, Option.pure_def, Int16.ofInt_toInt]

/-! ## Names of types -/

/-- A text that is read as a type wherever it stands. -/
structure Names (s : List Char) (t : ColumnType) : Prop where
  /-- It is a word, perhaps with arguments. -/
  starts : ∃ w r, s = w ++ r ∧ isWord w = true ∧ ∀ c ∈ r.head?, c = '('
  /-- It is read up to its end, if brackets may nest as deep as it is long. -/
  reads : ∀ depth rest, s.length < depth → Stops rest →
    readerTo depth (s ++ rest) = some (t, rest)

theorem Names.skipBlanks_append {s : List Char} {t : ColumnType} (h : Names s t)
    (r : List Char) : Text.skipBlanks (s ++ r) = s ++ r := by
  rcases h.starts with ⟨w, a, hs, hw, -⟩
  rw [hs, List.append_assoc]
  exact skipBlanks_word hw (a ++ r)

/-- The name of a type without arguments is a word. -/
theorem names_word {w : List Char} {t : ColumnType} (hw : isWord w = true)
    (ht : simple? (String.ofList w) = some t) : Names w t := by
  refine ⟨⟨w, [], (List.append_nil w).symm, hw, by simp⟩, ?_⟩
  intro depth rest hdepth hrest
  cases depth with
  | zero => omega
  | succ depth => exact readerTo_of_simple hw ht hrest depth

/-- A call of a word is left to one alternative, those before it refuse it. -/
def Calls {α : Type} (head : String) (arguments : Nat → Reader α) (f : α → ColumnType) : Prop :=
  ∀ depth r, ∃ others, readerTo (depth + 1) (head.toList ++ '(' :: r) =
    ((appliedReader head (arguments depth) (head.toList ++ '(' :: r)).map
      (fun p => (f p.1, p.2)) <|> others)

/-- A call is a name of a type if its arguments are read one level deeper. -/
theorem names_applied {α : Type} {head : String} {arguments : Nat → Reader α}
    {f : α → ColumnType} {texts : List (List Char)} {x : α} (hhead : isWord head.toList = true)
    (hcalls : Calls head arguments f)
    (hskip : ∀ r, Text.skipBlanks (commaSeparated texts ++ r) = commaSeparated texts ++ r)
    (hreads : ∀ depth rest, (commaSeparated texts).length < depth →
      arguments depth (commaSeparated texts ++ ')' :: rest) = some (x, ')' :: rest)) :
    Names (applied head.toList texts) (f x) := by
  refine ⟨⟨head.toList, '(' :: (commaSeparated texts ++ [')']), rfl, hhead, by simp⟩, ?_⟩
  intro depth rest hdepth hrest
  cases depth with
  | zero => omega
  | succ depth =>
    have hless : (commaSeparated texts).length < depth := by
      simp only [applied, List.length_append, List.length_cons] at hdepth
      omega
    rcases hcalls depth (commaSeparated texts ++ ')' :: rest) with ⟨others, hcall⟩
    rw [applied_append, hcall, appliedReader_append head (hskip _) (hreads depth rest hless)]
    rfl

theorem names_wrapper (head : String) {f : ColumnType → ColumnType} {s : List Char}
    {t : ColumnType} (hhead : isWord head.toList = true) (hcalls : Calls head readerTo f)
    (h : Names s t) : Names (applied head.toList [s]) (f t) := by
  refine names_applied hhead hcalls ?_ ?_
  · rw [commaSeparated_singleton]
    exact h.skipBlanks_append
  · intro depth rest hdepth
    rw [commaSeparated_singleton] at hdepth ⊢
    exact h.reads depth _ hdepth (stops_mark (Or.inr rfl) rest)

theorem names_map {s s' : List Char} {k v : ColumnType} (hk : Names s k) (hv : Names s' v) :
    Names (applied "Map".toList [s, s']) (map k v) := by
  have hcalls : Calls "Map" (fun depth => Reader.pairOf (readerTo depth) comma (readerTo depth))
      (fun p => map p.1 p.2) :=
    fun _ _ => ⟨_, rfl⟩
  refine names_applied (x := (k, v)) (by decide) hcalls ?_ ?_
  · intro r
    rw [commaSeparated_pair, List.append_assoc]
    exact hk.skipBlanks_append _
  · intro depth rest hdepth
    rw [commaSeparated_pair, List.length_append] at hdepth
    simp only [List.length_cons] at hdepth
    rw [commaSeparated_pair, List.append_assoc, List.cons_append, List.cons_append,
      Reader.pairOf, hk.reads depth _ (by omega) (stops_mark (Or.inl rfl) _)]
    simp only [Option.bind_eq_bind, Option.bind_some, comma_cons, hv.skipBlanks_append,
      hv.reads depth _ (by omega) (stops_mark (Or.inr rfl) rest), Option.pure_def]

/-- The text of an element of a tuple. -/
def elementName (e : Option String × ColumnType) : List Char :=
  match e.1 with
  | none => e.2.name
  | some n => n.toList ++ ' ' :: e.2.name

theorem elementNames_eq_map (ts : List (Option String × ColumnType)) :
    elementNames ts = ts.map elementName := by
  induction ts with
  | nil => rfl
  | cons e ts ih =>
    rcases e with ⟨_ | n, t⟩
    · rw [elementNames, ih]
      rfl
    · rw [elementNames, ih]
      rfl

theorem skipBlanks_elementName {e : Option String × ColumnType}
    (hword : ∀ n ∈ e.1, isWord n.toList = true) (h : Names e.2.name e.2) (r : List Char) :
    Text.skipBlanks (elementName e ++ r) = elementName e ++ r := by
  rcases e with ⟨_ | n, t⟩
  · exact h.skipBlanks_append r
  · rw [elementName, List.append_assoc]
    exact skipBlanks_word (hword n rfl) _

/-- An element of a tuple is read, with its name or without one. A type is no name of
    an element that a type follows, since no blank follows it. -/
theorem elementReader_elementName {e : Option String × ColumnType}
    (hword : ∀ n ∈ e.1, isWord n.toList = true) (h : Names e.2.name e.2) {depth : Nat}
    (hdepth : e.2.name.length < depth) {r : List Char} (hr : Stops r) :
    elementReader (readerTo depth) (elementName e ++ r) = some (e, r) := by
  have hread := h.reads depth r hdepth hr
  rcases e with ⟨_ | n, t⟩
  · rcases h.starts with ⟨w, a, hs, hw, ha⟩
    rcases isWord_iff.1 hw with ⟨hne, hall⟩
    have hstop : ∀ c ∈ (a ++ r).head?, isNameChar c = false ∧ Text.isBlank c = false := by
      intro c hc
      cases a with
      | nil => exact ⟨(hr c hc).1, (hr c hc).2.1⟩
      | cons d a =>
        rw [← Option.some.inj hc, ha d rfl]
        decide
    -- The first word of the type is taken for the name of the element at first, until no
    -- blank is found after it.
    have hname : nameReader (t.name ++ r) = some (w, a ++ r) := by
      rw [nameReader, hs, List.append_assoc]
      exact Reader.while1_append hne hall fun c hc => (hstop c hc).1
    have hblank : Reader.while1 Text.isBlank (a ++ r) = none :=
      Reader.while1_eq_none fun c hc => (hstop c hc).2
    simp only [elementName, elementReader, hname, hblank, hread, Option.bind_eq_bind,
      Option.bind_some, Option.bind_none]
    rfl
  · rcases isWord_iff.1 (hword n rfl) with ⟨hne, hall⟩
    have hname : nameReader (n.toList ++ ' ' :: (t.name ++ r)) =
        some (n.toList, ' ' :: (t.name ++ r)) :=
      Reader.while1_append hne hall (by simp; decide)
    -- The blank ends where the name of the type begins.
    have hblank : Reader.while1 Text.isBlank (' ' :: (t.name ++ r)) =
        some ([' '], t.name ++ r) :=
      Reader.while1_append (w := [' ']) (List.cons_ne_nil _ _) (List.forall_mem_singleton.2 rfl)
        (Text.isBlank_of_skipBlanks_eq (h.skipBlanks_append r))
    simp only [elementName, List.append_assoc, List.cons_append, elementReader, hname, hblank,
      hread, Option.bind_eq_bind, Option.bind_some, String.ofList_toList, Option.pure_def]
    rfl

theorem names_tuple {ts : List (Option String × ColumnType)} (hne : ts ≠ [])
    (hword : ∀ e ∈ ts, ∀ n ∈ e.1, isWord n.toList = true)
    (h : ∀ e ∈ ts, Names e.2.name e.2) : Names (tuple ts).name (tuple ts) := by
  have hcalls : Calls "Tuple"
      (fun depth => Reader.separated1 comma (elementReader (readerTo depth))) tuple :=
    fun _ _ => ⟨_, rfl⟩
  have hname : (tuple ts).name = applied "Tuple".toList (ts.map elementName) :=
    congrArg (applied "Tuple".toList) (elementNames_eq_map ts)
  rw [hname]
  refine names_applied (by decide) hcalls ?_ ?_
  · intro r
    cases ts with
    | nil => exact absurd rfl hne
    | cons e ts =>
      rw [List.map_cons, commaSeparated_cons, List.append_assoc]
      exact skipBlanks_elementName (hword e List.mem_cons_self) (h e List.mem_cons_self) _
  · intro depth rest hdepth
    have hread := Reader.separated1_commaSeparated (g := id) hne comma_closing
      (fun e he d r hd => by
        have hlength := length_le_commaSeparated (List.mem_map_of_mem he : elementName e ∈ _)
        have hless : e.2.name.length ≤ (elementName e).length := by
          rcases e with ⟨_ | n, t⟩
          · exact Nat.le_refl _
          · simp only [elementName, List.length_append, List.length_cons]
            omega
        have hitem := elementReader_elementName (hword e he) (h e he)
          (Nat.lt_of_le_of_lt (Nat.le_trans hless hlength) hdepth) (stops_mark hd r)
        refine ⟨hitem, _, comma_cons _, ?_⟩
        rw [skipBlanks_elementName (hword e he) (h e he)]
        exact hitem) rest
    rwa [List.map_id] at hread

theorem names_enum (head : String) {size : EnumSize} {members : List (String × Int16)}
    (hne : members ≠ []) (hhead : isWord head.toList = true)
    (hcalls : Calls head (fun _ => Reader.separated1 comma memberReader) (enum size)) :
    Names (applied head.toList [membersText members]) (enum size members) := by
  have htext : membersText members = commaSeparated (members.map memberText) := rfl
  have hskip (m : String × Int16) (r : List Char) :
      Text.skipBlanks (memberText m ++ r) = memberText m ++ r := rfl
  refine names_applied hhead hcalls ?_ ?_
  · intro r
    cases members with
    | nil => exact absurd rfl hne
    | cons m members =>
      rw [commaSeparated_singleton, htext, List.map_cons, commaSeparated_cons, List.append_assoc]
      exact hskip m _
  · intro depth rest hdepth
    rw [commaSeparated_singleton, htext]
    have hread := Reader.separated1_commaSeparated (g := id) hne comma_closing
      (fun m hm d r hd => by
        have hitem := memberReader_append m (r := d :: r) (by
          rcases hd with rfl | rfl <;> simp)
        exact ⟨hitem, _, comma_cons _, by rw [hskip]; exact hitem⟩) rest
    rwa [List.map_id] at hread

theorem skipBlanks_arguments {s : List Char} (h : ∀ r, Text.skipBlanks (s ++ r) = s ++ r)
    (r : List Char) : Text.skipBlanks (commaSeparated [s] ++ r) = commaSeparated [s] ++ r := by
  rw [commaSeparated_singleton]
  exact h r

theorem skipBlanks_argumentPair {s : List Char} (h : ∀ r, Text.skipBlanks (s ++ r) = s ++ r)
    (t r : List Char) :
    Text.skipBlanks (commaSeparated [s, t] ++ r) = commaSeparated [s, t] ++ r := by
  rw [commaSeparated_pair, List.append_assoc]
  exact h _

/-- The time zone of a point in time is read, whatever characters it has. -/
theorem names_dateTime (zone : Option String) : Names (dateTime zone).name (dateTime zone) := by
  cases zone with
  | none => exact names_word (w := "DateTime".toList) (by decide) rfl
  | some zone =>
    have hcalls : Calls "DateTime" (fun _ => quotedReader) (fun zone => dateTime (some zone)) :=
      fun _ _ => ⟨_, rfl⟩
    refine names_applied (x := zone) (f := fun zone => dateTime (some zone)) (by decide) hcalls
      (skipBlanks_arguments fun _ => rfl) ?_
    intro depth rest hdepth
    rw [commaSeparated_singleton]
    exact quotedReader_quote zone (by simp)

/-- The arguments of a point in time with decimal places. -/
def placesReader : Reader (UInt8 × Option String) := fun s => do
  let (p, r) ← byteReader s
  let (zone, r) ← zoneReader r
  pure ((p, zone), r)

theorem names_dateTime64 (p : UInt8) (zone : Option String) :
    Names (dateTime64 p zone).name (dateTime64 p zone) := by
  have hcalls : Calls "DateTime64" (fun _ => placesReader) (fun q => dateTime64 q.1 q.2) :=
    fun _ _ => ⟨_, rfl⟩
  cases zone with
  | none =>
    refine names_applied (x := (p, none)) (by decide) hcalls
      (skipBlanks_arguments (skipBlanks_digits _)) ?_
    intro depth rest hdepth
    have hzone : zoneReader (')' :: rest) = some (none, ')' :: rest) := rfl
    rw [commaSeparated_singleton, placesReader, byteReader_digits p (by simp)]
    simp only [Option.bind_eq_bind, Option.bind_some, hzone, Option.pure_def]
  | some zone =>
    refine names_applied (x := (p, some zone)) (by decide) hcalls
      (skipBlanks_argumentPair (skipBlanks_digits _) _) ?_
    intro depth rest hdepth
    have hcomma : comma (',' :: ' ' :: (Text.quote zone.toList ++ ')' :: rest)) =
        some ((), Text.quote zone.toList ++ ')' :: rest) := rfl
    have hzone : zoneReader (',' :: ' ' :: (Text.quote zone.toList ++ ')' :: rest)) =
        some (some zone, ')' :: rest) := by
      rw [zoneReader, Reader.optional, hcomma]
      simp only [Option.bind_eq_bind, Option.bind_some,
        quotedReader_quote zone (r := ')' :: rest) (by simp)]
    rw [commaSeparated_pair, List.append_assoc, List.cons_append, List.cons_append,
      placesReader, byteReader_digits p (by simp)]
    simp only [Option.bind_eq_bind, Option.bind_some, hzone, Option.pure_def]

theorem names_decimal (p q : UInt8) : Names (decimal p q).name (decimal p q) := by
  have hcalls : Calls "Decimal" (fun _ => Reader.pairOf byteReader comma byteReader)
      (fun n => decimal n.1 n.2) :=
    fun _ _ => ⟨_, rfl⟩
  refine names_applied (x := (p, q)) (by decide) hcalls
    (skipBlanks_argumentPair (skipBlanks_digits _) _) ?_
  intro depth rest hdepth
  rw [commaSeparated_pair, List.append_assoc, List.cons_append, List.cons_append, Reader.pairOf,
    byteReader_digits p (by simp)]
  simp only [Option.bind_eq_bind, Option.bind_some, comma_cons, skipBlanks_digits,
    byteReader_digits q (r := ')' :: rest) (by simp), Option.pure_def]

theorem names_fixedString (n : UInt64) : Names (fixedString n).name (fixedString n) := by
  have hn := n.toNat_lt
  let f := fun n : Int => fixedString (UInt64.ofNat n.toNat)
  have hcalls : Calls "FixedString" (fun _ => integerReader 0 0xFFFFFFFFFFFFFFFF) f :=
    fun _ _ => ⟨_, rfl⟩
  have hf : f n.toNat = fixedString n := by simp only [f, Int.toNat_natCast, UInt64.ofNat_toNat]
  have hnames : Names (fixedString n).name (f n.toNat) := by
    refine names_applied (by decide) hcalls (skipBlanks_arguments (skipBlanks_digits _)) ?_
    intro depth rest hdepth
    rw [commaSeparated_singleton]
    exact integerReader_digits (by omega) (by simp)
  rwa [hf] at hnames

theorem names_word_type (w : WordType) : Names (word w).name (word w) := by
  rcases w with ⟨_ | _, _ | _ | _ | _⟩ <;> exact names_word (by decide) rfl

/-- The name of a type is a name of it. -/
theorem names_name (t : ColumnType) (h : t.isNameable = true) : Names t.name t := by
  induction t using mem_induction with
  | scalar t ht =>
    cases t with
    | fixedString n => exact names_fixedString n
    | dateTime zone => exact names_dateTime zone
    | dateTime64 p zone => exact names_dateTime64 p zone
    | word w => exact names_word_type w
    | decimal p q => exact names_decimal p q
    | enum size members =>
      have hne : members ≠ [] := by simpa [isNameable] using h
      cases size with
      | byte => exact names_enum "Enum8" hne (by decide) fun _ _ => ⟨_, rfl⟩
      | short => exact names_enum "Enum16" hne (by decide) fun _ _ => ⟨_, rfl⟩
    | array | tuple | map | nullable | lowCardinality => cases ht
    | _ => exact names_word (by decide) rfl
  | array t ih => exact names_wrapper "Array" (by decide) (fun _ _ => ⟨_, rfl⟩) (ih h)
  | tuple ts ih =>
    simp only [isNameable, elementsAreNameable_eq_all, Bool.and_eq_true, List.all_eq_true,
      Option.all_eq_true] at h
    exact names_tuple (by simpa using h.1) (fun e he n hn => (h.2 e he).1 n hn)
      fun e he => ih e he (h.2 e he).2
  | map k v ihk ihv =>
    simp only [isNameable, Bool.and_eq_true] at h
    exact names_map (ihk h.1) (ihv h.2)
  | nullable t ih =>
    exact names_wrapper "Nullable" (by decide) (fun _ _ => ⟨_, rfl⟩) (ih h)
  | lowCardinality t ih =>
    exact names_wrapper "LowCardinality" (by decide) (fun _ _ => ⟨_, rfl⟩) (ih h)

/-! ## What is read -/

theorem of_call {α : Type} {head : String} {arguments : Reader α} {f : α → ColumnType}
    {s r : List Char} {t : ColumnType}
    (h : (appliedReader head arguments s).map (fun p => (f p.1, p.2)) = some (t, r)) :
    ∃ x s' r', arguments s' = some (x, r') ∧ t = f x := by
  rcases Option.map_eq_some_iff.1 h with ⟨⟨x, r₀⟩, hcall, heq⟩
  cases heq
  unfold appliedReader at hcall
  rcases Option.bind_eq_some_iff.1 hcall with ⟨⟨_, r₁⟩, -, hcall⟩
  unfold Reader.enclosed at hcall
  rcases Option.bind_eq_some_iff.1 hcall with ⟨⟨_, r₂⟩, -, hcall⟩
  rcases Option.bind_eq_some_iff.1 hcall with ⟨⟨y, r₃⟩, hspaced, hcall⟩
  rcases Option.bind_eq_some_iff.1 hcall with ⟨⟨_, r₄⟩, -, hcall⟩
  cases hcall
  rcases Option.bind_eq_some_iff.1 hspaced with ⟨⟨y, r₅⟩, hread, hspaced⟩
  cases hspaced
  exact ⟨_, _, _, hread, rfl⟩

theorem of_pairOf {α β : Type} {first : Reader α} {separator : Reader Unit} {second : Reader β}
    {s r : List Char} {p : α × β} (h : Reader.pairOf first separator second s = some (p, r)) :
    (∃ r', first s = some (p.1, r')) ∧ ∃ s' r', second s' = some (p.2, r') := by
  unfold Reader.pairOf at h
  rcases Option.bind_eq_some_iff.1 h with ⟨⟨x, r₁⟩, hfirst, h⟩
  rcases Option.bind_eq_some_iff.1 h with ⟨⟨_, r₂⟩, -, h⟩
  rcases Option.bind_eq_some_iff.1 h with ⟨⟨y, r₃⟩, hsecond, h⟩
  cases h
  exact ⟨⟨r₁, hfirst⟩, r₂, _, hsecond⟩

/-- An element that was read has a word for its name, or none. -/
theorem of_elementReader {type : Reader ColumnType} {s r : List Char}
    {e : Option String × ColumnType} (h : elementReader type s = some (e, r)) :
    (∀ n ∈ e.1, isWord n.toList = true) ∧ ∃ s' r', type s' = some (e.2, r') := by
  unfold elementReader at h
  rcases (Option.orElse_eq_some _ _ _).1 h with h | ⟨-, h⟩
  · rcases Option.bind_eq_some_iff.1 h with ⟨⟨w, r₁⟩, hname, h⟩
    rcases Option.bind_eq_some_iff.1 h with ⟨⟨_, r₂⟩, -, h⟩
    rcases Option.bind_eq_some_iff.1 h with ⟨⟨t, r₃⟩, htype, h⟩
    cases h
    refine ⟨?_, r₂, r, htype⟩
    intro n hn
    cases hn
    rw [String.toList_ofList]
    exact isWord_iff.2 (Reader.of_while1 hname)
  · rcases Option.map_eq_some_iff.1 h with ⟨⟨t, r₁⟩, htype, heq⟩
    cases heq
    exact ⟨by simp, s, r, htype⟩

theorem isNameable_of_simple? {w : String} {t : ColumnType} (h : simple? w = some t) :
    t.isNameable = true := by
  unfold simple? at h
  split at h <;> cases h <;> rfl

theorem isNameable_of_enumReader {head : String} {size : EnumSize} {s r : List Char}
    {t : ColumnType} (h : enumReader head size s = some (t, r)) : t.isNameable = true := by
  rcases of_call (f := enum size) h with ⟨members, _, _, hread, rfl⟩
  simpa [isNameable] using (Reader.of_separated1 hread).1

/-- Only types whose names can be read are read. -/
theorem isNameable_of_readerTo {depth : Nat} {s r : List Char} {t : ColumnType}
    (h : readerTo depth s = some (t, r)) : t.isNameable = true := by
  -- Induction on the depth, and one case for each alternative.
  induction depth generalizing s r t with
  | zero => cases h
  | succ depth ih =>
    unfold readerTo at h
    simp only [Option.orElse_eq_some] at h
    rcases h with hnullable | ⟨-, hlow | ⟨-, harray | ⟨-, hmap | ⟨-, htuple | ⟨-, hbyte | ⟨-,
      hshort | ⟨-, hdecimal | ⟨-, hdecimal | ⟨-, hdecimal | ⟨-, hdecimal | ⟨-, hplaces | ⟨-,
      hzoned | ⟨-, hfixed | ⟨-, hsimple⟩⟩⟩⟩⟩⟩⟩⟩⟩⟩⟩⟩⟩⟩
    · rcases of_call hnullable with ⟨_, _, _, hread, rfl⟩
      have hinner := ih hread
      exact hinner
    · rcases of_call hlow with ⟨_, _, _, hread, rfl⟩
      have hinner := ih hread
      exact hinner
    · rcases of_call harray with ⟨_, _, _, hread, rfl⟩
      have hinner := ih hread
      exact hinner
    · rcases of_call (f := fun p : ColumnType × ColumnType => map p.1 p.2) hmap
        with ⟨p, _, _, hread, rfl⟩
      rcases of_pairOf hread with ⟨⟨_, hkey⟩, _, _, hvalue⟩
      simp only [isNameable, ih hkey, ih hvalue, Bool.and_self]
    · rcases of_call htuple with ⟨ts, _, _, hread, rfl⟩
      rcases Reader.of_separated1 hread with ⟨hne, hall⟩
      simp only [isNameable, elementsAreNameable_eq_all, Bool.and_eq_true, List.all_eq_true,
        Option.all_eq_true]
      refine ⟨by simpa using hne, ?_⟩
      intro e he
      rcases hall e he with ⟨_, _, helement⟩
      rcases of_elementReader helement with ⟨hword, _, _, htype⟩
      exact ⟨hword, ih htype⟩
    · exact isNameable_of_enumReader hbyte
    · exact isNameable_of_enumReader hshort
    · rcases of_call (f := decimal 9) hdecimal with ⟨_, _, _, -, rfl⟩
      rfl
    · rcases of_call (f := decimal 18) hdecimal with ⟨_, _, _, -, rfl⟩
      rfl
    · rcases of_call (f := decimal 38) hdecimal with ⟨_, _, _, -, rfl⟩
      rfl
    · rcases of_call (f := fun p : UInt8 × UInt8 => decimal p.1 p.2) hdecimal
        with ⟨_, _, _, -, rfl⟩
      rfl
    · rcases of_call (f := fun p : UInt8 × Option String => dateTime64 p.1 p.2) hplaces
        with ⟨_, _, _, -, rfl⟩
      rfl
    · rcases of_call (f := fun zone => dateTime (some zone)) hzoned with ⟨_, _, _, -, rfl⟩
      rfl
    · rcases of_call (f := fun n : Int => fixedString (UInt64.ofNat n.toNat)) hfixed
        with ⟨_, _, _, -, rfl⟩
      rfl
    · unfold simpleReader at hsimple
      rcases Option.bind_eq_some_iff.1 hsimple with ⟨⟨w, r₁⟩, -, hsimple⟩
      rcases Option.bind_eq_some_iff.1 hsimple with ⟨t', ht, hsimple⟩
      cases hsimple
      exact isNameable_of_simple? ht

theorem read_of_names {s : List Char} {t : ColumnType} (h : Names s t) : read s = .ok t := by
  have hread := h.reads (s.length + 1) [] (Nat.lt_succ_self _) stops_nil
  have hskip := h.skipBlanks_append []
  rw [List.append_nil] at hread hskip
  rw [read, Reader.spaced, hskip, reader, hread]
  rfl

theorem isNameable_of_read {s : List Char} {t : ColumnType} (h : read s = .ok t) :
    t.isNameable = true := by
  unfold read at h
  split at h
  · next t' hread =>
    cases h
    unfold Reader.spaced at hread
    rcases Option.bind_eq_some_iff.1 hread with ⟨⟨u, r⟩, hreader, heq⟩
    rw [← (Prod.mk.inj (Option.some.inj heq)).1]
    exact isNameable_of_readerTo hreader
  · cases h
  · cases h

/-- A type is read from its own name just if every enumeration in it has a member and
    every tuple has an element and no element is named by anything but a word; and it is
    such a type just if there is a text that it is read from. -/
theorem read_name_iff (t : ColumnType) :
    (read t.name = .ok t ↔ t.isNameable = true) ∧
      ((∃ s, read s = .ok t) ↔ t.isNameable = true) := by
  have hname : t.isNameable = true → read t.name = .ok t :=
    fun h => read_of_names (names_name t h)
  refine ⟨⟨isNameable_of_read, hname⟩, ?_, fun h => ⟨t.name, hname h⟩⟩
  rintro ⟨s, hs⟩
  exact isNameable_of_read hs

end ColumnType

end ColumnStore
