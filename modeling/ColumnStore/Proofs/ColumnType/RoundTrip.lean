import ColumnStore.ColumnType.Decode
import ColumnStore.Proofs.ColumnType.Kept
import ColumnStore.Proofs.Decimal.Rounding
import ColumnStore.Proofs.Except.Basic
import ColumnStore.Proofs.Time.Reading
import Mathlib.Data.List.Forall2

/-!
# Writing and Reading Values of a Type

A value that a type accepts is written, and what is written is read back as what the
type accepted. Two things are lost on the way, at any depth: an instant loses the
decimal places that its type does not have, and a text of a number of bytes loses the
characters of number zero at its end. Nothing else is, whatever characters texts hold
and however deep values nest.

Equality of values is that of the library, so decimals are compared as numbers, and a
value that is not a number is taken to be itself.

## Main definitions

* `Value.isLegible`: What is asked of the scalars in a value.
* `ColumnType.decimalsFit`: No decimal has more places than decimals are created with.
* `ColumnType.norm`: What is left of a value after writing and reading it.
* `ColumnType.Returns`: The literal of a value is read as what is left of it.

## Theorems

* `ColumnType.decodeScalar_of_keeps`: Values that a type keeps are read back.
* `ColumnType.returns_of_acceptAs`: So are all values that a type accepts.
* `ColumnType.decodeSql_encode`: A value that a type accepts is written and read back.
-/

namespace ColumnStore

namespace Value

mutual

/-- What is asked of the scalars in a value: floating-point numbers, unique identifiers,
    internet addresses and documents are read back from their own texts, and no instant
    is a leap second. -/
def isLegible : Value → Bool
  | float x => (Binary64.read? x.sql).any fun y => y = x || y.agrees x
  | dateTime t => t.nanos < 1000000000
  | uuid u => Uuid.read? u.text = some u
  | ipv4 a => Ipv4.read? a.text = some a
  | ipv6 a => Ipv6.read? a.text = some a
  | json j => (Json.read? j.text).any fun k => k.agrees j
  | array items => listIsLegible items
  | tuple items => listIsLegible items
  | map entries => entriesAreLegible entries
  | _ => true

/-- The same for all items of a list. -/
def listIsLegible : List Value → Bool
  | [] => true
  | v :: vs => isLegible v && listIsLegible vs

/-- The same for all keys and values. -/
def entriesAreLegible : List (Value × Value) → Bool
  | [] => true
  | (k, v) :: es => isLegible k && isLegible v && entriesAreLegible es

end

theorem listIsLegible_eq_all (vs : List Value) : listIsLegible vs = vs.all isLegible := by
  induction vs with
  | nil => rfl
  | cons v vs ih => rw [listIsLegible, ih, List.all_cons]

theorem entriesAreLegible_eq_all (es : List (Value × Value)) :
    entriesAreLegible es = es.all fun e => e.1.isLegible && e.2.isLegible := by
  induction es with
  | nil => rfl
  | cons e es ih => rw [entriesAreLegible, ih, List.all_cons]

/-- Lists whose items agree one by one agree. -/
theorem listAgrees_of_forall₂ {α : Type} {eq : Binary64 → Binary64 → Bool} {g : α → Value}
    {xs : List α} {us : List Value} (h : List.Forall₂ (fun x u => agrees eq u (g x) = true) xs us) :
    listAgrees eq us (xs.map g) = true := by
  induction h with
  | nil => rfl
  | cons hx _ ih => simp only [List.map_cons, listAgrees, hx, ih, Bool.and_self]

/-- Keys and values that agree one by one agree. -/
theorem entriesAgree_of_forall₂ {α : Type} {eq : Binary64 → Binary64 → Bool}
    {g : α → Value × Value} {xs : List α} {us : List (Value × Value)}
    (h : List.Forall₂ (fun x u => agrees eq u.1 (g x).1 = true ∧ agrees eq u.2 (g x).2 = true)
      xs us) : entriesAgree eq us (xs.map g) = true := by
  induction h with
  | nil => rfl
  | cons hx _ ih => simp only [List.map_cons, entriesAgree, hx.1, hx.2, ih, Bool.and_self]

end Value

namespace ColumnType

mutual

/-- Whether no decimal has more places than decimals are created with. -/
def decimalsFit : ColumnType → Bool
  | decimal _ scale => scale.toNat ≤ Decimal.maxScale
  | array t => decimalsFit t
  | tuple ts => elementsFit ts
  | map k v => decimalsFit k && decimalsFit v
  | nullable t => decimalsFit t
  | lowCardinality t => decimalsFit t
  | _ => true

/-- The same for the elements of a tuple. -/
def elementsFit : List (Option String × ColumnType) → Bool
  | [] => true
  | (_, t) :: ts => decimalsFit t && elementsFit ts

end

mutual

/-- What is left of a value after it was written as one of a type and read back:
    instants without the places that the type does not have, and texts of a number of
    bytes without the characters of number zero at their end. -/
def norm : ColumnType → Value → Value
  | lowCardinality t, v => norm t v
  | nullable _, .null => .null
  | nullable t, v => norm t v
  | fixedString _, .string s =>
    .string (String.ofList (Text.dropWhileRight (· = '\x00') s.toList))
  | dateTime _, .dateTime t => .dateTime (t.cut 0)
  | dateTime64 p _, .dateTime t => .dateTime (t.cut (min p.toNat 9))
  | array t, .array items => .array (items.map (norm t))
  | tuple ts, .tuple items => .tuple (elementsNorm ts items)
  | map k v, .map entries => .map (entries.map fun (x, y) => (norm k x, norm v y))
  | _, v => v

/-- What is left of the elements of a tuple. -/
def elementsNorm : List (Option String × ColumnType) → List Value → List Value
  | (_, t) :: ts, v :: vs => norm t v :: elementsNorm ts vs
  | _, vs => vs

end

/-- The literal of a value is read as what is left of the value. -/
def Returns (t : ColumnType) (w : Value) : Prop :=
  ∃ u, (∀ outer, decodeAs outer t (t.literalOf w) = .ok u) ∧ u.same (t.norm w) = true

/-! ## Scalars -/

/-- A range of integers lies within the words of 64 binary digits of its sign. -/
theorem bounds_of_holds {w : WordType} {n : Int} (h : w.holds n = true) :
    if w.signed then -0x8000000000000000 ≤ n ∧ n < 0x8000000000000000
    else 0 ≤ n ∧ n < 0x10000000000000000 := by
  rcases w with ⟨signed, width⟩
  simp only [WordType.holds, WordType.lower, WordType.upper, Bool.and_eq_true,
    decide_eq_true_eq] at h
  cases signed <;> cases width <;> simp only [Width.bits, if_true, if_false, Bool.false_eq_true,
    Nat.pow_eq, Nat.reduceSub, Nat.reducePow] at h ⊢ <;> omega

/-- An integer of a range is written as such, whatever its kind. -/
theorem literal_ofWord {w : WordType} {n : Int} (h : w.holds n = true) :
    (Value.ofWord w n).literal = .scalar (String.ofList (Number.signed n)) := by
  have hbounds := bounds_of_holds h
  unfold Value.ofWord
  cases hsigned : w.signed with
  | true =>
    simp only [hsigned, if_true] at hbounds
    simp only [if_true, Value.literal,
      Int64.toInt_ofInt_of_le (n := n) (by omega) (by omega)]
  | false =>
    simp only [hsigned, Bool.false_eq_true, if_false] at hbounds
    have hpos : ¬ n < 0 := by omega
    have hnat : n.toNat = n.natAbs := by omega
    have hword : (UInt64.ofNat n.natAbs).toNat = n.natAbs := by
      rw [UInt64.toNat_ofNat']
      exact Nat.mod_eq_of_lt (by omega)
    simp only [Bool.false_eq_true, if_false, Value.literal, Number.signed, hpos, hnat, hword]

/-- An integer of a range is read back. -/
theorem decodeWord_signed {w : WordType} {n : Int} (h : w.holds n = true) :
    decodeWord w (Number.signed n) = .ok (Value.ofWord w n) := by
  have hbounds := bounds_of_holds h
  -- What is read is first held in a word of 128 binary digits.
  have hwide : -0x80000000000000000000000000000000 ≤ n ∧
      n ≤ 0x7FFFFFFFFFFFFFFFFFFFFFFFFFFFFFFF := by
    cases hsigned : w.signed with
    | true =>
      simp only [hsigned, if_true] at hbounds
      omega
    | false =>
      simp only [hsigned, Bool.false_eq_true, if_false] at hbounds
      omega
  rw [decodeWord, Literal.trim_of_isNumber (Lexical.isNumber_signed n),
    Number.integerBetween?_signed hwide]
  simp only [acceptWord, h, if_true]

/-- A floating-point number is read back as its text is. -/
theorem read?_trim_sql {x : Binary64} (h : (Value.float x).isLegible = true) :
    ∃ y, Binary64.read? (Text.trim x.sql) = some y ∧ (Value.float y).same (.float x) = true := by
  -- There is no white space to be trimmed, neither in a number nor in a name.
  have htrim : Text.trim x.sql = x.sql := by
    rcases Lexical.isNumber_float_or x with hx | hx
    · exact Literal.trim_of_isNumber hx
    · simp only [List.mem_cons, List.not_mem_nil, or_false] at hx
      rcases hx with hx | hx | hx <;> rw [hx] <;> decide
  rw [htrim]
  simp only [Value.isLegible] at h
  cases hread : Binary64.read? x.sql with
  | none =>
    rw [hread] at h
    cases h
  | some y =>
    rw [hread] at h
    exact ⟨y, rfl, h⟩

/-- An instant is read back with the places that its type has. -/
theorem decodeInstant_fixed {t : Instant} (h : (Value.dateTime t).isLegible = true)
    (places : Nat) : decodeScalar.decodeInstant (Text.trim (t.fixed places)) =
      .ok (.dateTime (t.cut (min places 9))) := by
  simp only [Value.isLegible, decide_eq_true_eq] at h
  rw [Text.trim_of_forall_isSpace fun _ hc => Instant.isSpace_of_mem_fixed hc,
    decodeScalar.decodeInstant, Instant.read?_fixed h]
  rfl

/-- A value that a type keeps is read back from its literal as what is left of it. -/
theorem decodeScalar_of_keeps {t : ColumnType} {w : Value} (h : Keeps t w)
    (hfit : t.decimalsFit = true) (hw : w.isLegible = true) :
    ∃ s u, t.literalOf w = .scalar (String.ofList s) ∧ decodeScalar t s = .ok u ∧
      u.same (t.norm w) = true := by
  cases h with
  | string s =>
    refine ⟨s.toList, .string s, rfl, ?_, ?_⟩
    · simp only [decodeScalar, String.ofList_toList]
    · simp only [norm, Value.same, Value.agrees, decide_true]
  | fixedString n s =>
    refine ⟨s.toList, _, rfl, rfl, ?_⟩
    simp only [norm, Value.same, Value.agrees, decide_true]
  | date d =>
    refine ⟨d.text, .date d, rfl, ?_, ?_⟩
    · simp only [decodeScalar, Date.read?_text, Option.map_some, orUnreadable]
    · simp only [norm, Value.same, Value.agrees, decide_true]
  | dateTime zone t =>
    refine ⟨t.fixed 0, _, rfl, decodeInstant_fixed hw 0, ?_⟩
    simp only [norm, Value.same, Value.agrees, Nat.zero_min, decide_true]
  | dateTime64 p zone t =>
    refine ⟨t.fixed p.toNat, _, rfl, decodeInstant_fixed hw p.toNat, ?_⟩
    simp only [norm, Value.same, Value.agrees, decide_true]
  | word w n hn =>
    refine ⟨Number.signed n, _, ?_, decodeWord_signed hn, ?_⟩
    · exact literal_ofWord hn
    · unfold Value.ofWord
      split
      · simp only [norm, Value.same, Value.agrees, decide_true]
      · simp only [norm, Value.same, Value.agrees, decide_true]
  | float32 x =>
    rcases read?_trim_sql hw with ⟨y, hread, hsame⟩
    refine ⟨x.sql, .float y, rfl, ?_, hsame⟩
    simp only [decodeScalar, hread, Option.map_some, orUnreadable]
  | float64 x =>
    rcases read?_trim_sql hw with ⟨y, hread, hsame⟩
    refine ⟨x.sql, .float y, rfl, ?_, hsame⟩
    simp only [decodeScalar, hread, Option.map_some, orUnreadable]
  | decimal p q d e he =>
    -- What was accepted has no more places than the type, so its text is read.
    rcases of_acceptDecimal he with ⟨e', heq, hsettled, -⟩
    obtain rfl := Value.decimal.inj heq
    simp only [decimalsFit, decide_eq_true_eq] at hfit
    have hread := Decimal.read?_text (Nat.le_trans hsettled.scale_le hfit)
    refine ⟨e.text, .decimal e.withoutZeroSign, rfl, ?_, e.withoutZeroSign_agrees⟩
    rw [decodeScalar, Literal.trim_of_isNumber (Lexical.isNumber_decimal e), hread]
    exact acceptDecimal_again he rfl rfl
  | bool b =>
    cases b with
    | true => exact ⟨"true".toList, .bool true, by rw [String.ofList_toList]; rfl, rfl, rfl⟩
    | false => exact ⟨"false".toList, .bool false, by rw [String.ofList_toList]; rfl, rfl, rfl⟩
  | enum size members name hname =>
    refine ⟨name.toList, .enum name, rfl, ?_, ?_⟩
    · simp only [decodeScalar, decodeMember, String.ofList_toList, hname]
      rfl
    · simp only [norm, Value.same, Value.agrees, decide_true]
  | uuid u =>
    simp only [Value.isLegible, decide_eq_true_eq] at hw
    refine ⟨u.text, .uuid u, rfl, ?_, ?_⟩
    · simp only [decodeScalar, hw]
    · simp only [norm, Value.same, Value.agrees, decide_true]
  | ipv4 a =>
    simp only [Value.isLegible, decide_eq_true_eq] at hw
    refine ⟨a.text, .ipv4 a, rfl, ?_, ?_⟩
    · simp only [decodeScalar, hw, Option.map_some, orUnreadable]
    · simp only [norm, Value.same, Value.agrees, decide_true]
  | ipv6 a =>
    simp only [Value.isLegible, decide_eq_true_eq] at hw
    refine ⟨a.text, .ipv6 a, rfl, ?_, ?_⟩
    · simp only [decodeScalar, hw, Option.map_some, orUnreadable]
    · simp only [norm, Value.same, Value.agrees, decide_true]
  | json j =>
    simp only [Value.isLegible] at hw
    cases hread : Json.read? j.text with
    | none =>
      rw [hread] at hw
      cases hw
    | some k =>
      rw [hread] at hw
      refine ⟨j.text, .json k, rfl, ?_, hw⟩
      simp only [decodeScalar, hread]

/-! ## All types -/

/-- A scalar is read by the type itself. -/
theorem decodeAs_scalar {outer t : ColumnType} (ht : IsScalar t) (s : List Char) :
    decodeAs outer t (.scalar (String.ofList s)) = decodeScalar t s := by
  have hself : (String.ofList s).toList = s := String.toList_ofList
  cases t with
  | array | tuple | map | nullable | lowCardinality => cases ht
  | _ =>
    unfold decodeAs
    rw [hself]

/-- A value that is content is not written as the absence of content. -/
theorem literalOf_ne_null (t : ColumnType) {w : Value} (hw : w ≠ .null) :
    t.literalOf w ≠ .null := by
  -- A value is written as one of its type, or as if it had none.
  have hplain {w : Value} (hw : w ≠ .null) : w.literal ≠ .null := by
    intro h
    cases w with
    | null => exact hw rfl
    | bool b => cases b <;> cases h
    | _ => cases h
  have hleaf {t : ColumnType} (ht : t.literalOf w = w.literal ∨ ∃ s, t.literalOf w = .scalar s) :
      t.literalOf w ≠ .null := by
    intro h
    rcases ht with ht | ⟨s, ht⟩
    · rw [ht] at h
      exact hplain hw h
    · rw [ht] at h
      cases h
  induction t using mem_induction with
  | scalar t ht =>
    refine hleaf ?_
    cases t with
    | array | tuple | map | nullable | lowCardinality => cases ht
    | dateTime zone =>
      cases w with
      | dateTime t => exact Or.inr ⟨_, rfl⟩
      | _ => exact Or.inl rfl
    | dateTime64 p zone =>
      cases w with
      | dateTime t => exact Or.inr ⟨_, rfl⟩
      | _ => exact Or.inl rfl
    | _ => exact Or.inl rfl
  | array t _ =>
    cases w with
    | array items =>
      intro h
      cases h
    | _ => exact hleaf (Or.inl rfl)
  | tuple ts _ =>
    cases w with
    | tuple items =>
      intro h
      cases h
    | _ => exact hleaf (Or.inl rfl)
  | map k x _ _ =>
    cases w with
    | map entries =>
      intro h
      cases h
    | _ => exact hleaf (Or.inl rfl)
  | nullable t ih =>
    cases w with
    | null => exact absurd rfl hw
    | _ => exact ih
  | lowCardinality t ih => exact ih

/-- An array whose items return returns. -/
theorem returns_array {t : ColumnType} {ws : List Value} (h : ∀ w ∈ ws, Returns t w) :
    Returns (array t) (.array ws) := by
  -- What the items are read as, in their order.
  rcases exists_mapM (f := fun w => decodeAs t t (t.literalOf w))
    (R := fun w u => u.same (t.norm w) = true)
    (fun w hw => by
      rcases h w hw with ⟨u, hread, hsame⟩
      exact ⟨u, hread t, hsame⟩) with ⟨us, hmap, hsame⟩
  refine ⟨.array us, ?_, Value.listAgrees_of_forall₂ hsame⟩
  intro outer
  have hitems : (ws.map t.literalOf).mapM (decodeAs t t) = .ok us := by
    rw [List.mapM_map]
    exact hmap
  show ((ws.map t.literalOf).mapM (decodeAs t t)).map Value.array = .ok (.array us)
  rw [hitems]
  rfl

/-- A map whose keys and values return returns. -/
theorem returns_map {k x : ColumnType} {ws : List (Value × Value)}
    (h : ∀ w ∈ ws, Returns k w.1 ∧ Returns x w.2) : Returns (map k x) (.map ws) := by
  -- What the keys and the values are read as, entry by entry.
  rcases exists_mapM (f := fun w : Value × Value => (do
      pure (← decodeAs k k (k.literalOf w.1), ← decodeAs x x (x.literalOf w.2)) :
        Except CodecError (Value × Value)))
    (R := fun w u => u.1.same (k.norm w.1) = true ∧ u.2.same (x.norm w.2) = true)
    (fun w hw => by
      rcases h w hw with ⟨⟨u, hread, hsame⟩, ⟨u', hread', hsame'⟩⟩
      refine ⟨(u, u'), ?_, hsame, hsame'⟩
      rw [hread k, hread' x]
      rfl) with ⟨us, hmap, hsame⟩
  refine ⟨.map us, ?_, Value.entriesAgree_of_forall₂ hsame⟩
  intro outer
  have hentries : (ws.map fun w => (k.literalOf w.1, x.literalOf w.2)).mapM
      (fun l : Literal × Literal => (do
        pure (← decodeAs k k l.1, ← decodeAs x x l.2) : Except CodecError (Value × Value))) =
          .ok us := by
    rw [List.mapM_map]
    exact hmap
  show ((ws.map fun w => (k.literalOf w.1, x.literalOf w.2)).mapM
      (fun l : Literal × Literal => (do
        pure (← decodeAs k k l.1, ← decodeAs x x l.2) : Except CodecError (Value × Value)))).map
          Value.map = .ok (.map us)
  rw [hentries]
  rfl

/-- The elements of a tuple are read back one by one. -/
theorem decodeElements_of_acceptElements {ts : List (Option String × ColumnType)}
    (ih : ∀ e ∈ ts, e.2.decimalsFit = true → ∀ {outer : ColumnType} {v w : Value},
      acceptAs outer e.2 v = .ok w → w.isLegible = true → Returns e.2 w)
    (hfit : elementsFit ts = true) {vs ws : List Value} (hlen : ts.length = vs.length)
    (h : acceptElements ts vs = .ok ws) (hws : Value.listIsLegible ws = true) :
    ts.length = ws.length ∧ ∃ us, decodeElements ts (elementsLiteral ts ws) = .ok us ∧
      Value.listAgrees (fun x y => x = y || x.agrees y) us (elementsNorm ts ws) = true := by
  -- Induction on the types, with one value for each of them. Every element is accepted,
  -- or the tuple would not be.
  induction ts generalizing vs ws with
  | nil =>
    cases vs with
    | nil =>
      cases h
      exact ⟨rfl, [], rfl, rfl⟩
    | cons v vs => cases hlen
  | cons e ts ihs =>
    cases vs with
    | nil => cases hlen
    | cons v vs =>
      simp only [acceptElements] at h
      cases hv : acceptAs e.2 e.2 v with
      | error e =>
        rw [hv] at h
        cases h
      | ok w =>
        cases hvs : acceptElements ts vs with
        | error e =>
          rw [hv, hvs] at h
          cases h
        | ok ws' =>
          rw [hv, hvs] at h
          cases h
          simp only [elementsFit, Bool.and_eq_true] at hfit
          simp only [Value.listIsLegible, Bool.and_eq_true] at hws
          rcases ih e List.mem_cons_self hfit.1 hv hws.1 with ⟨u, hread, hsame⟩
          rcases ihs (fun e' he' => ih e' (List.mem_cons_of_mem e he')) hfit.2
            (Nat.succ.inj hlen) hvs hws.2 with ⟨hlen', us, hreads, hsames⟩
          refine ⟨congrArg Nat.succ hlen', u :: us, ?_, ?_⟩
          · simp only [elementsLiteral, decodeElements, hread e.2, hreads]
            rfl
          · have hfirst : Value.agrees (fun x y => x = y || x.agrees y) u (e.2.norm w) = true :=
              hsame
            simp only [elementsNorm, Value.listAgrees, hfirst, hsames, Bool.and_self]

/-- A value that a type accepts is read back from its literal as what is left of it. -/
theorem returns_of_acceptAs (t : ColumnType) (hfit : t.decimalsFit = true) {outer : ColumnType}
    {v w : Value} (h : acceptAs outer t v = .ok w) (hw : w.isLegible = true) : Returns t w := by
  -- Induction on the type. Wrappers pass on what they are given, and composite types
  -- what their parts have made of theirs.
  induction t using mem_induction generalizing outer v w with
  | scalar t ht =>
    rcases decodeScalar_of_keeps (keeps_of_acceptAs ht h) hfit hw with ⟨s, u, hl, hread, hsame⟩
    refine ⟨u, ?_, hsame⟩
    intro outer
    rw [hl, decodeAs_scalar ht, hread]
  | array t ih =>
    rcases of_acceptAs_array h with ⟨items, ws, hitems, rfl⟩
    simp only [Value.isLegible, Value.listIsLegible_eq_all, List.all_eq_true] at hw
    refine returns_array fun w hmem => ?_
    rcases (mem_of_mapM hitems).1 _ hmem with ⟨v, -, hv⟩
    exact ih hfit hv (hw w hmem)
  | tuple ts ih =>
    rcases of_acceptAs_tuple h with ⟨items, ws, hlen, hitems, rfl⟩
    rcases decodeElements_of_acceptElements ih hfit hlen hitems hw with ⟨hlen', us, hread, hsame⟩
    refine ⟨.tuple us, ?_, hsame⟩
    intro outer
    have hcount : ts.length = (elementsLiteral ts ws).length := by
      rw [elementsLiteral_eq_map, List.length_map, List.length_zip]
      omega
    -- There is a literal for each element, which is checked before they are read.
    show (if ts.length = (elementsLiteral ts ws).length then
      (decodeElements ts (elementsLiteral ts ws)).map Value.tuple
      else .error (.elementCount outer ts.length (elementsLiteral ts ws).length)) = _
    rw [if_pos hcount, hread]
    rfl
  | map k x ihk ihx =>
    rcases of_acceptAs_map h with ⟨entries, ws, hentries, rfl⟩
    simp only [Value.isLegible, Value.entriesAreLegible_eq_all, List.all_eq_true,
      Bool.and_eq_true] at hw
    simp only [decimalsFit, Bool.and_eq_true] at hfit
    refine returns_map fun w hmem => ?_
    rcases (mem_of_mapM hentries).1 _ hmem with ⟨e, -, he⟩
    cases hk : acceptAs k k e.1 with
    | error e' =>
      rw [hk] at he
      cases he
    | ok w₁ =>
      cases hx : acceptAs x x e.2 with
      | error e' =>
        rw [hk, hx] at he
        cases he
      | ok w₂ =>
        rw [hk, hx] at he
        cases he
        exact ⟨ihk hfit.1 hk (hw _ hmem).1, ihx hfit.2 hx (hw _ hmem).2⟩
  | nullable t ih =>
    by_cases hv : v = .null
    · subst hv
      cases h
      exact ⟨.null, fun _ => rfl, rfl⟩
    · -- Content stays content, so that the wrapper passes it on in both directions.
      have hinner : acceptAs t t v = .ok w := by
        cases v with
        | null => exact absurd rfl hv
        | _ => exact h
      have hne := accept_ne_null t hv hinner
      rcases ih hfit hinner hw with ⟨u, hread, hsame⟩
      have hliteral : (nullable t).literalOf w = t.literalOf w := by
        cases w with
        | null => exact absurd rfl hne
        | _ => rfl
      have hnorm : (nullable t).norm w = t.norm w := by
        cases w with
        | null => exact absurd rfl hne
        | _ => rfl
      refine ⟨u, ?_, by rw [hnorm]; exact hsame⟩
      intro outer
      rw [hliteral, ← hread t]
      -- The literal is not the one that the wrapper takes for itself.
      cases hl : t.literalOf w with
      | null => exact absurd hl (t.literalOf_ne_null hne)
      | _ => rfl
  | lowCardinality t ih =>
    rcases ih hfit h hw with ⟨u, hread, hsame⟩
    exact ⟨u, fun outer => hread outer, hsame⟩

/-- A value that returns is read back from what it is written as. -/
theorem Returns.decodeSql_sqlOf {t : ColumnType} {w : Value} (h : Returns t w) :
    ∃ u, t.decodeSql (t.sqlOf w) = .ok u ∧ u.same (t.norm w) = true := by
  rcases h with ⟨u, hread, hsame⟩
  refine ⟨u, ?_, hsame⟩
  rw [decodeSql, Literal.read_of_notates (notates_sqlOf t w)]
  exact hread t

/-- A value that a type accepts is written, and what is written is read back as what
    the type made of the value, but for the places of instants that the type does not
    have and the characters of number zero at the end of texts of a number of bytes. -/
theorem decodeSql_encode {t : ColumnType} {v w : Value} (hfit : t.decimalsFit = true)
    (haccept : t.accept v = .ok w) (hw : w.isLegible = true) :
    ∃ s u, t.encode v = .ok s ∧ t.decodeSql s = .ok u ∧ u.same (t.norm w) = true := by
  rcases returns_of_acceptAs t hfit haccept hw with ⟨u, hread, hsame⟩
  refine ⟨t.sqlOf w, u, ?_, ?_, hsame⟩
  · rw [encode, haccept]
    rfl
  · rw [decodeSql, Literal.read_of_notates (notates_sqlOf t w)]
    exact hread t

/-- A map from texts to arrays of tuples, with a text of a number of bytes, an instant
    with three places, a decimal and a floating-point number in each. -/
def readings : ColumnType :=
  map string (array (tuple [(none, fixedString 4), (some "at", nullable (dateTime64 3 none)),
    (some "price", lowCardinality (decimal 9 2)), (none, float64)]))

/-- A key with quotes and brackets, and two tuples, one of them without its instant. -/
def readingsGiven : Value :=
  .map [(.string "it's [NULL], \\", .array [
    .tuple [.string "ab\x00", .dateTime ⟨1700000000, 123456789, by decide, by decide⟩, .int (-5),
      .int 3],
    .tuple [.string "", .null, .uint 7, .float .nan]])]

/-- What the type makes of them. -/
def readingsAccepted : Value :=
  .map [(.string "it's [NULL], \\", .array [
    .tuple [.string "ab\x00", .dateTime ⟨1700000000, 123456789, by decide, by decide⟩,
      .decimal ⟨true, 500, 2, by decide⟩, .float (Binary64.ofInt 3)],
    .tuple [.string "", .null, .decimal ⟨false, 700, 2, by decide⟩, .float .nan]])]

/-- Such a map is written and read back. -/
theorem readings_return : ∃ s u, readings.encode readingsGiven = .ok s ∧
    readings.decodeSql s = .ok u ∧ u.same (readings.norm readingsAccepted) = true :=
  decodeSql_encode (by decide) (by rfl) (by decide +kernel)

end ColumnType

end ColumnStore
