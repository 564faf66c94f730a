import ColumnStore.ColumnType.Decode
import ColumnStore.Proofs.ColumnType.Inside
import ColumnStore.Proofs.ColumnType.RoundTrip
import Mathlib.Data.Option.Basic

/-!
# Absent Content

Absent content has notations of its own, one for cells and one for literals, and texts may look
like either. Reading keeps them apart: something is absent from what is read exactly where it is
written as absent and the type allows that. The text of a cell never says that it is absent, and
neither does what stands in quotes inside of a composite value.

Reading follows the structure of types, and so does the argument. At every position inside of
a composite value stands what the type at this position reads the literal at this position as,
so what holds of a value by itself holds at any depth. A scalar in place of a composite literal
is opened on the way, as often as it takes. This makes the text of a cell no case of its own: it
is read as the scalar with that text is.

## Main definitions

* `Literal.opened?`: A literal with the quotes around it taken off.
* `Literal.inside?`: The literal at the end of a path.
* `ColumnType.slot?`: The type at the end of a path, with its wrappers.
* `ColumnType.AllowsAbsence`: A type to which the absence of content was added.
* `ColumnType.Composes`: What a composite type reads a literal without quotes as.
* `ColumnType.ReadsAs`: What stands at a position.

## Theorems

* `Literal.unquote_of_read_scalar`, `Literal.opened?_scalar`: Opening a text is reading it and
  opening what it says.
* `ColumnType.decodeAs_iff_composes`: What composite types read.
* `ColumnType.decodeTextAs_iff`: The text of a cell is read as a scalar is.
* `ColumnType.keeps_of_decodeScalar`: What is read from a text is what the type keeps.
* `ColumnType.readsAs_part`, `ColumnType.readsAs_inside`: Reading, one step inside and along
  a path.
* `ColumnType.decode_eq_null_iff`: What is read is absent where absence is written.
-/

namespace ColumnStore

namespace Literal

open Text

theorem eq_null_of_nullReader {s r : List Char} {l : Literal}
    (h : nullReader s = some (l, r)) : l = null := by
  rcases (Option.orElse_eq_some _ _ _).1 h with hword | ⟨-, hmark⟩
  · split at hword
    · next c r _ =>
      cases hbare : isBare c <;> rw [hbare] at hword <;> cases hword
      rfl
    · cases hword
      rfl
    · cases hword
  · rcases Option.map_eq_some_iff.1 hmark with ⟨_, -, hpair⟩
    cases hpair
    rfl

/-- A scalar at the start of a text is shorter than the text, or it stands there as it is. -/
theorem length_lt_or_of_readerTo {depth : Nat} {s r : List Char} {t : String}
    (h : readerTo depth s = some (scalar t, r)) :
    t.toList.length < s.length ∨ s = t.toList ++ r := by
  cases depth with
  | zero => cases h
  | succ depth =>
    -- Of the eight readers only two give scalars.
    rw [readerTo] at h
    rcases (Option.orElse_eq_some _ _ _).1 h with hnull | ⟨-, h⟩
    · cases eq_null_of_nullReader hnull
    rcases (Option.orElse_eq_some _ _ _).1 h with hquoted | ⟨-, h⟩
    · rcases Option.map_eq_some_iff.1 hquoted with ⟨⟨body, _⟩, hbody, hpair⟩
      cases hpair
      unfold readQuoted at hbody
      split at hbody
      · rw [String.toList_ofList, List.length_cons]
        have hlt := length_add_lt_of_readQuotedBody hbody
        exact Or.inl (by omega)
      · cases hbody
    rcases (Option.orElse_eq_some _ _ _).1 h with hlist | ⟨-, h⟩
    · rcases Option.map_eq_some_iff.1 hlist with ⟨_, -, hpair⟩
      cases hpair
    rcases (Option.orElse_eq_some _ _ _).1 h with hmap | ⟨-, h⟩
    · rcases Option.bind_eq_some_iff.1 hmap with ⟨_, -, hmap⟩
      rcases Option.bind_eq_some_iff.1 hmap with ⟨_, -, hmap⟩
      rcases Option.bind_eq_some_iff.1 hmap with ⟨_, -, hpair⟩
      cases hpair
    rcases (Option.orElse_eq_some _ _ _).1 h with htuple | ⟨-, h⟩
    · rcases Option.bind_eq_some_iff.1 htuple with ⟨_, -, htuple⟩
      rcases Option.bind_eq_some_iff.1 htuple with ⟨_, -, hpair⟩
      cases hpair
    rcases (Option.orElse_eq_some _ _ _).1 h with hlist | ⟨-, h⟩
    · rcases Option.map_eq_some_iff.1 hlist with ⟨_, -, hpair⟩
      cases hpair
    rcases (Option.orElse_eq_some _ _ _).1 h with hbraces | ⟨-, hbare⟩
    · rcases Option.map_eq_some_iff.1 hbraces with ⟨_, -, hpair⟩
      cases hpair
    · rcases Option.map_eq_some_iff.1 hbare with ⟨⟨word, r⟩, hword, hpair⟩
      cases hpair
      rw [String.toList_ofList]
      exact Or.inr (Reader.eq_append_of_while1 hword)

/-- A scalar that is no shorter than the text it is read from is that text. -/
theorem eq_of_read_scalar {s : List Char} {t : String} (h : read s = .ok (scalar t))
    (hlength : ¬ t.toList.length < s.length) : t.toList = s := by
  unfold read at h
  split at h
  · next x hspaced =>
    cases h
    rcases Option.bind_eq_some_iff.1 hspaced with ⟨⟨x, r⟩, hread, hpair⟩
    obtain rfl : x = scalar t := congrArg Prod.fst (Option.some.inj hpair)
    have hskip := length_skipBlanks_le s
    rcases length_lt_or_of_readerTo hread with hlt | hall
    · omega
    · -- There is room for nothing but the word.
      have hparts := congrArg List.length hall
      rw [List.length_append] at hparts
      have hr : r = [] := List.eq_nil_of_length_eq_zero (by omega)
      rw [hr, List.append_nil] at hall
      rw [← hall]
      have hsuffix : skipBlanks s <:+ s := List.dropWhile_suffix isBlank
      exact hsuffix.eq_of_length (by omega)
  · cases h
  · cases h

/-- A literal with the quotes around it taken off. -/
def opened? : Literal → Option Literal
  | scalar s => (unquote s.toList).toOption
  | l => some l

/-- The part of a literal to which a step leads. -/
def part? (l : Literal) (step : PathStep) : Option Literal :=
  match l.opened?, step with
  | some (list items), .item i => items[i]?
  | some (list items), .element i => items[i]?
  | some (map entries), .key i => entries[i]?.map (·.1)
  | some (map entries), .content i => entries[i]?.map (·.2)
  | _, _ => none

/-- The literal at the end of a path. -/
def inside? (l : Literal) (path : List PathStep) : Option Literal :=
  path.foldlM part? l

/-- A scalar is opened on the way, and a bare word is itself again. -/
theorem unquote_of_read_scalar {s : List Char} {t : String} (h : read s = .ok (scalar t)) :
    unquote s = unquote t.toList := by
  by_cases hlength : t.toList.length < s.length
  · rw [unquote, h]
    exact if_pos hlength
  · rw [eq_of_read_scalar h hlength]

/-- Opening a text is reading it and opening what it says. -/
theorem opened?_scalar (s : String) :
    (scalar s).opened? = (read s.toList).toOption.bind opened? := by
  rw [opened?]
  cases hread : read s.toList with
  | error e =>
    rw [unquote, hread]
    rfl
  | ok l =>
    cases l with
    | scalar t =>
      rw [unquote_of_read_scalar hread]
      rfl
    | _ =>
      rw [unquote, hread]
      rfl

end Literal

namespace ColumnType

variable {outer t : ColumnType} {l : Literal} {w : Value} {step : PathStep}

/-- A type to which the absence of content was added. -/
def AllowsAbsence (t : ColumnType) : Prop :=
  ∃ u, t.stripped = nullable u

/-- The type at the end of a path, with its wrappers. -/
def slot? (t : ColumnType) (path : List PathStep) : Option ColumnType :=
  path.foldlM part? t

/-- A type whose values have others inside. -/
def IsComposite : ColumnType → Prop
  | array _ => True
  | tuple _ => True
  | map _ _ => True
  | _ => False

theorem unwrapped_cases (t : ColumnType) : t.unwrapped.IsScalar ∨ t.unwrapped.IsComposite := by
  induction t using mem_induction with
  | scalar t ht =>
    cases t with
    | array | tuple | map | nullable | lowCardinality => cases ht
    | _ => exact Or.inl trivial
  | nullable t ih => exact ih
  | lowCardinality t ih => exact ih
  | _ => exact Or.inr trivial

/-! ## Composites -/

/-- What a composite type reads a literal as that has no quotes around it. -/
inductive Composes : ColumnType → Literal → Value → Prop
  /-- The items of an array, one by one. -/
  | array {t : ColumnType} {items : List Literal} {ws : List Value}
      (h : items.mapM (decodeAs t t) = .ok ws) : Composes (array t) (.list items) (.array ws)
  /-- The elements of a tuple, one by one. -/
  | tuple {ts : List (Option String × ColumnType)} {items : List Literal} {ws : List Value}
      (hlength : ts.length = items.length) (h : decodeElements ts items = .ok ws) :
      Composes (tuple ts) (.list items) (.tuple ws)
  /-- The keys and the values of a map, one by one. -/
  | map {k x : ColumnType} {entries : List (Literal × Literal)} {ws : List (Value × Value)}
      (h : entries.mapM (fun e => (do pure (← decodeAs k k e.1, ← decodeAs x x e.2) :
        Except CodecError (Value × Value))) = .ok ws) :
      Composes (map k x) (.map entries) (.map ws)

theorem opened_eq (outer self : ColumnType) (l : Literal) :
    (opened outer self l).toOption.map (·.2) = l.opened? := by
  cases l with
  | scalar s =>
    unfold opened Literal.opened?
    dsimp only
    cases Literal.unquote s.toList with
    | error e => rfl
    | ok l => rfl
  | _ => rfl

/-- A composite type reads what is left of a literal once the quotes are taken off. -/
theorem decodeAs_iff_composes (ht : t.IsComposite) :
    decodeAs outer t l = .ok w ↔ ∃ x, l.opened? = some x ∧ Composes t x w := by
  cases t with
  | array t =>
    rw [decodeAs, ← opened_eq outer (array t)]
    cases opened outer (array t) l with
    | error e => exact iff_of_false nofun nofun
    | ok p =>
      obtain ⟨self, x⟩ := p
      cases x with
      | list items =>
        constructor
        · intro h
          rcases of_map_eq_ok h with ⟨ws, hws, rfl⟩
          exact ⟨_, rfl, .array hws⟩
        · rintro ⟨x, hx, hc⟩
          cases hx
          cases hc with
          | array h =>
            show (items.mapM (decodeAs t t)).map Value.array = _
            rw [h]
            rfl
      | _ =>
        refine iff_of_false nofun ?_
        rintro ⟨x, hx, hc⟩
        cases hx
        cases hc
  | tuple ts =>
    rw [decodeAs, ← opened_eq outer (tuple ts)]
    cases opened outer (tuple ts) l with
    | error e => exact iff_of_false nofun nofun
    | ok p =>
      obtain ⟨self, x⟩ := p
      cases x with
      | list items =>
        show (if ts.length = items.length then (decodeElements ts items).map Value.tuple
          else .error (.elementCount self ts.length items.length)) = _ ↔ _
        constructor
        · intro h
          by_cases hlength : ts.length = items.length
          · rw [if_pos hlength] at h
            rcases of_map_eq_ok h with ⟨ws, hws, rfl⟩
            exact ⟨_, rfl, .tuple hlength hws⟩
          · rw [if_neg hlength] at h
            cases h
        · rintro ⟨x, hx, hc⟩
          cases hx
          cases hc with
          | tuple hlength h =>
            rw [if_pos hlength, h]
            rfl
      | _ =>
        refine iff_of_false nofun ?_
        rintro ⟨x, hx, hc⟩
        cases hx
        cases hc
  | map k x =>
    rw [decodeAs, ← opened_eq outer (map k x)]
    cases opened outer (map k x) l with
    | error e => exact iff_of_false nofun nofun
    | ok p =>
      obtain ⟨self, y⟩ := p
      cases y with
      | map entries =>
        constructor
        · intro h
          rcases of_map_eq_ok h with ⟨ws, hws, rfl⟩
          exact ⟨_, rfl, .map hws⟩
        · rintro ⟨x, hx, hc⟩
          cases hx
          cases hc with
          | map h => exact congrArg (Except.map Value.map) h
      | _ =>
        refine iff_of_false nofun ?_
        rintro ⟨x, hx, hc⟩
        cases hx
        cases hc
  | _ => cases ht

/-! ## Cells -/

theorem decodeAs_stripped (outer t : ColumnType) (l : Literal) :
    decodeAs outer t.stripped l = decodeAs outer t l := by
  induction t using mem_induction with
  | lowCardinality t ih => exact ih
  | scalar t ht =>
    cases t with
    | lowCardinality t => cases ht
    | _ => rfl
  | _ => rfl

/-- A composite type reads a text as the scalar with that text, whatever wraps it. -/
theorem decodeSql_iff {s : List Char} (ht : t.IsComposite) (houter : outer.stripped = t) :
    outer.decodeSql s = .ok w ↔ decodeAs outer t (.scalar (String.ofList s)) = .ok w := by
  rw [decodeAs_iff_composes ht, Literal.opened?_scalar, String.toList_ofList, decodeSql]
  cases Literal.read s with
  | error e =>
    constructor
    · intro h
      cases h
    · rintro ⟨_, h, -⟩
      cases h
  | ok l =>
    show outer.decodeLiteral l = _ ↔ _
    rw [decodeLiteral, ← decodeAs_stripped, houter]
    exact decodeAs_iff_composes ht

/-- The text of a cell is read as the scalar with that text is. -/
theorem decodeTextAs_iff {s : List Char} (houter : outer.stripped = t.stripped) :
    decodeTextAs outer t s = .ok w ↔ decodeAs outer t (.scalar (String.ofList s)) = .ok w := by
  induction t using mem_induction generalizing outer with
  | scalar t ht =>
    rw [decodeAs_scalar ht]
    cases t with
    | array | tuple | map | nullable | lowCardinality => cases ht
    | _ => rfl
  | array t _ => exact decodeSql_iff trivial houter
  | tuple ts _ => exact decodeSql_iff trivial houter
  | map k x _ _ => exact decodeSql_iff trivial houter
  | nullable t ih => exact ih rfl
  | lowCardinality t ih => exact ih houter

/-! ## Absence -/

/-- A composite value is no absence of content. -/
theorem Composes.ne_null (h : Composes t l w) : w ≠ .null := by
  cases h with
  | _ => exact nofun

/-- What a type keeps that stands alone has nothing inside. -/
theorem Keeps.part?_eq_none (h : Keeps t w) : w.part? step = none := by
  cases h with
  | word k n hn =>
    unfold Value.ofWord
    split <;> rfl
  | _ => rfl

/-- A text that is readable is read as content of one kind. -/
theorem of_orUnreadable {α : Type} {s : List Char} {f : α → Value} {x : Option α}
    (h : orUnreadable t s (x.map f) = .ok w) : ∃ a, w = f a := by
  cases x with
  | none => cases h
  | some a => exact ⟨a, (Except.ok.inj h).symm⟩

/-- What is read from a text is what the type keeps. -/
theorem keeps_of_decodeScalar {s : List Char} (h : decodeScalar t s = .ok w) : Keeps t w := by
  -- There is a case for each type, and one for those that have no texts.
  unfold decodeScalar at h
  split at h
  · cases h
    exact .string _
  · cases h
    exact .fixedString _ _
  · rcases of_orUnreadable h with ⟨d, rfl⟩
    exact .date d
  · rcases of_orUnreadable h with ⟨x, rfl⟩
    exact .dateTime _ x
  · rcases of_orUnreadable h with ⟨x, rfl⟩
    exact .dateTime64 _ _ x
  · unfold decodeWord at h
    split at h
    · exact keeps_of_acceptWord h
    · cases h
  · rcases of_orUnreadable h with ⟨x, rfl⟩
    exact .float32 x
  · rcases of_orUnreadable h with ⟨x, rfl⟩
    exact .float64 x
  · split at h
    · next d _ =>
      rcases of_acceptDecimal h with ⟨e, rfl, -⟩
      exact .decimal _ _ d e h
    · cases h
  · split at h
    · cases h
      exact .bool true
    · split at h
      · cases h
        exact .bool false
      · cases h
  · next size members =>
    rcases of_member h with ⟨name, hfound, rfl⟩
    -- The member is looked up by its name, then by its value.
    cases hnamed : memberNamed? members (String.ofList s) with
    | some other =>
      rw [hnamed] at hfound
      cases hfound
      exact .enum size members name (memberNamed?_of_find? hnamed)
    | none =>
      rw [hnamed] at hfound
      rcases Option.bind_eq_some_iff.1 hfound with ⟨n, -, hvalue⟩
      exact .enum size members name (memberNamed?_of_find? hvalue)
  · split at h
    · cases h
      exact .uuid _
    · cases h
  · rcases of_orUnreadable h with ⟨a, rfl⟩
    exact .ipv4 a
  · rcases of_orUnreadable h with ⟨a, rfl⟩
    exact .ipv6 a
  · split at h
    · cases h
      exact .json _
    · cases h
  · cases h

/-- The literal of absent content is read as absent content, and by no other type. -/
theorem decodeAs_null_iff : decodeAs outer t .null = .ok w ↔ w = .null ∧ t.AllowsAbsence := by
  have hrefused {t : ColumnType} (ht : ∀ u, t.stripped ≠ nullable u) {e : CodecError} :
      Except.error e = .ok w ↔ w = .null ∧ t.AllowsAbsence :=
    iff_of_false nofun fun h => h.2.elim ht
  induction t using mem_induction with
  | scalar t ht =>
    cases t with
    | array | tuple | map | nullable | lowCardinality => cases ht
    | _ => exact hrefused (by intro u h; cases h)
  | array t _ => exact hrefused (by intro u h; cases h)
  | tuple ts _ => exact hrefused (by intro u h; cases h)
  | map k x _ _ => exact hrefused (by intro u h; cases h)
  | nullable t _ => exact ⟨fun h => ⟨(Except.ok.inj h).symm, t, rfl⟩, fun h => h.1 ▸ rfl⟩
  | lowCardinality t ih => exact ih

/-- A literal of content is read by what the wrappers enclose. -/
theorem decodeAs_unwrapped (hl : l ≠ .null) (h : decodeAs outer t l = .ok w) :
    ∃ o, decodeAs o t.unwrapped l = .ok w := by
  induction t using mem_induction generalizing outer with
  | scalar t ht =>
    cases t with
    | nullable | lowCardinality => cases ht
    | _ => exact ⟨outer, h⟩
  | nullable t ih =>
    cases l with
    | null => exact absurd rfl hl
    | _ => exact ih h
  | lowCardinality t ih => exact ih h
  | _ => exact ⟨outer, h⟩

/-- What stands alone is read from a scalar. -/
theorem keeps_of_decodeAs (ht : t.IsScalar) (h : decodeAs outer t l = .ok w) : Keeps t w := by
  cases l with
  | scalar s =>
    rw [← String.ofList_toList (s := s), decodeAs_scalar ht] at h
    exact keeps_of_decodeScalar h
  | _ =>
    cases t with
    | array | tuple | map | nullable | lowCardinality => cases ht
    | _ => cases h

/-- What content is read as is content. -/
theorem ne_null_of_decodeAs (hl : l ≠ .null) (h : decodeAs outer t l = .ok w) : w ≠ .null := by
  rcases decodeAs_unwrapped hl h with ⟨o, h⟩
  rcases t.unwrapped_cases with ht | ht
  · exact (keeps_of_decodeAs ht h).ne_null
  · rcases (decodeAs_iff_composes ht).1 h with ⟨x, -, hc⟩
    exact hc.ne_null

/-- Absent content is read from the literal for it and by the types that allow it. -/
theorem decodeAs_eq_null_iff : decodeAs outer t l = .ok .null ↔ l = .null ∧ t.AllowsAbsence := by
  constructor
  · intro h
    obtain rfl : l = .null := by
      by_contra hl
      exact ne_null_of_decodeAs hl h rfl
    exact ⟨rfl, (decodeAs_null_iff.1 h).2⟩
  · rintro ⟨rfl, ht⟩
    exact decodeAs_null_iff.2 ⟨rfl, ht⟩

/-- An absent cell is absent content, for the types that allow it. -/
theorem decodeCell_none_iff : t.decodeCell none = .ok w ↔ w = .null ∧ t.AllowsAbsence := by
  unfold decodeCell AllowsAbsence
  cases t.stripped with
  | nullable u =>
    constructor
    · intro h
      exact ⟨(Except.ok.inj h).symm, u, rfl⟩
    · rintro ⟨rfl, -⟩
      rfl
  | _ =>
    refine iff_of_false nofun ?_
    rintro ⟨-, u, hu⟩
    cases hu

/-- Whatever the type, what it reads is absent exactly if the literal is. -/
theorem eq_null_iff_of_decodeAs (h : decodeAs outer t l = .ok w) : w = .null ↔ l = .null := by
  constructor
  · rintro rfl
    exact (decodeAs_eq_null_iff.1 h).1
  · rintro rfl
    exact (decodeAs_null_iff.1 h).1

/-! ## Inside of values -/

/-- What stands at a position: the value that a type reads a literal as, or none where one of
    these two is missing. -/
inductive ReadsAs : Option ColumnType → Option Literal → Option Value → Prop
  /-- A type and a literal. -/
  | value {t : ColumnType} {l : Literal} {w : Value} (h : t.decodeLiteral l = .ok w) :
      ReadsAs (some t) (some l) (some w)
  /-- No type. -/
  | noType {l : Option Literal} : ReadsAs none l none
  /-- No literal. -/
  | noLiteral {t : Option ColumnType} : ReadsAs t none none

theorem readsAs_of_mapM {items : List Literal} {ws : List Value}
    (h : items.mapM (decodeAs t t) = .ok ws) (i : Nat) : ReadsAs (some t) items[i]? ws[i]? := by
  induction items generalizing ws i with
  | nil =>
    cases h
    exact .noLiteral
  | cons l items ih =>
    rcases of_mapM_cons_eq_ok h with ⟨w, ws, hw, hws, rfl⟩
    cases i with
    | zero => exact .value hw
    | succ i => exact ih hws i

theorem readsAs_of_decodeElements {ts : List (Option String × ColumnType)} {items : List Literal}
    {ws : List Value} (h : decodeElements ts items = .ok ws) (i : Nat) :
    ReadsAs (ts[i]?.map (·.2)) items[i]? ws[i]? := by
  induction ts generalizing items ws i with
  | nil =>
    cases h
    exact .noType
  | cons t ts ih =>
    cases items with
    | nil =>
      cases h
      exact .noLiteral
    | cons l items =>
      rw [decodeElements] at h
      rcases of_bind_eq_ok h with ⟨w, hw, h⟩
      rcases of_bind_eq_ok h with ⟨ws, hws, h⟩
      cases h
      cases i with
      | zero => exact .value hw
      | succ i => exact ih hws i

theorem readsAs_of_mapM_entries {k x : ColumnType} {entries : List (Literal × Literal)}
    {ws : List (Value × Value)}
    (h : entries.mapM (fun e => (do pure (← decodeAs k k e.1, ← decodeAs x x e.2) :
      Except CodecError (Value × Value))) = .ok ws) (i : Nat) :
    ReadsAs (some k) (entries[i]?.map (·.1)) (ws[i]?.map (·.1)) ∧
      ReadsAs (some x) (entries[i]?.map (·.2)) (ws[i]?.map (·.2)) := by
  induction entries generalizing ws i with
  | nil =>
    cases h
    exact ⟨.noLiteral, .noLiteral⟩
  | cons e entries ih =>
    rcases of_mapM_cons_eq_ok h with ⟨w, ws, hw, hws, rfl⟩
    rcases of_bind_eq_ok hw with ⟨a, ha, hw⟩
    rcases of_bind_eq_ok hw with ⟨b, hb, hw⟩
    cases hw
    cases i with
    | zero => exact ⟨.value ha, .value hb⟩
    | succ i => exact ih hws i

/-- One step inside of what was read, the same holds. -/
theorem readsAs_part (h : decodeAs outer t l = .ok w) (step : PathStep) :
    ReadsAs (t.part? step) (l.part? step) (w.part? step) := by
  by_cases hl : l = .null
  · subst hl
    rw [(decodeAs_null_iff.1 h).1]
    exact .noLiteral
  rcases decodeAs_unwrapped hl h with ⟨o, h⟩
  unfold part?
  rcases t.unwrapped_cases with ht | ht
  · rw [(keeps_of_decodeAs ht h).part?_eq_none]
    generalize t.unwrapped = u at ht
    cases u with
    | array | tuple | map | nullable | lowCardinality => cases ht
    | _ => exact .noType
  · rcases (decodeAs_iff_composes ht).1 h with ⟨x, hx, hc⟩
    unfold Literal.part?
    rw [hx]
    generalize t.unwrapped = u at hc
    -- The steps into other composites lead nowhere.
    cases hc with
    | array hitems =>
      cases step with
      | item i => exact readsAs_of_mapM hitems i
      | _ => exact .noType
    | tuple hlength hitems =>
      cases step with
      | element i => exact readsAs_of_decodeElements hitems i
      | _ => exact .noType
    | map hentries =>
      cases step with
      | key i => exact (readsAs_of_mapM_entries hentries i).1
      | content i => exact (readsAs_of_mapM_entries hentries i).2
      | _ => exact .noType

/-- Along every path inside of what was read, the same holds. -/
theorem readsAs_inside (h : t.decodeLiteral l = .ok w) (path : List PathStep) :
    ReadsAs (t.slot? path) (l.inside? path) (w.inside? path) := by
  induction path generalizing t l w with
  | nil => exact .value h
  | cons step path ih =>
    have hpart := readsAs_part h step
    rw [slot?, Literal.inside?, Value.inside?, List.foldlM_cons, List.foldlM_cons, List.foldlM_cons]
    generalize t.part? step = t' at hpart
    generalize l.part? step = l' at hpart
    generalize w.part? step = w' at hpart
    cases hpart with
    | value h => exact ih h
    | noType => exact .noType
    | noLiteral => exact .noLiteral

/-- What is read is absent exactly where absence is written and the type allows it: from a
    cell if that is the mark of an absent one, and from a literal if that is the one for absent
    content. The text of a cell is read as the scalar with that text is, whatever it says. So
    it is inside of everything that is read, at each position: a value stands there if and only
    if the type and the literal have one there, it is what this type reads that literal as, and
    it is absent exactly if the literal is, which the type then allows. -/
theorem decode_eq_null_iff (t : ColumnType) :
    (∀ c, t.decodeCell (Text.readCell c) = .ok .null ↔ c = ['\\', 'N'] ∧ t.AllowsAbsence) ∧
      (∀ l, t.decodeLiteral l = .ok .null ↔ l = .null ∧ t.AllowsAbsence) ∧
      (∀ s w, t.decodeCell (some s) = .ok w ↔
        t.decodeLiteral (.scalar (String.ofList s)) = .ok w) ∧
      ∀ l w, t.decodeLiteral l = .ok w → ∀ path,
        (∀ u x, t.slot? path = some u → l.inside? path = some x →
          ∃ y, w.inside? path = some y ∧ (y = .null ↔ x = .null)) ∧
        ∀ y, w.inside? path = some y → ∃ u x, t.slot? path = some u ∧ l.inside? path = some x ∧
          u.decodeLiteral x = .ok y ∧ (y = .null ↔ x = .null ∧ u.AllowsAbsence) := by
  have htext (s : List Char) (w : Value) : t.decodeCell (some s) = .ok w ↔
      t.decodeLiteral (.scalar (String.ofList s)) = .ok w := decodeTextAs_iff rfl
  refine ⟨fun c => ?_, fun l => decodeAs_eq_null_iff, htext, fun l w h path => ?_⟩
  · unfold Text.readCell
    by_cases hc : c = ['\\', 'N']
    · rw [if_pos hc]
      exact decodeCell_none_iff.trans (and_congr_left fun _ => iff_of_true rfl hc)
    · rw [if_neg hc, htext]
      refine iff_of_false (fun h => ?_) fun h => hc h.1
      cases (decodeAs_eq_null_iff.1 h).1
  · have hreads := readsAs_inside h path
    generalize t.slot? path = t' at hreads ⊢
    generalize l.inside? path = l' at hreads ⊢
    generalize w.inside? path = w' at hreads ⊢
    constructor
    · intro u x hu hx
      subst hu hx
      cases hreads with
      | value h => exact ⟨_, rfl, eq_null_iff_of_decodeAs h⟩
    · intro y hy
      subst hy
      cases hreads with
      | value h =>
        refine ⟨_, _, rfl, rfl, h, fun hy => ?_, fun hx => (eq_null_iff_of_decodeAs h).2 hx.1⟩
        exact decodeAs_eq_null_iff.1 (hy ▸ h)

/-- In an array of texts that may be absent, a word that looks like absence and an empty text
    are texts, and what is absent is so. -/
theorem absent_item_of_texts :
    (array (nullable string)).decodeLiteral (.list [.scalar "NULL", .null, .scalar ""]) =
        .ok (.array [.string "NULL", .null, .string ""]) ∧
      ∃ u x, (array (nullable string)).slot? [.item 1] = some u ∧
        (Literal.list [.scalar "NULL", .null, .scalar ""]).inside? [.item 1] = some x ∧
        u.decodeLiteral x = .ok .null ∧ x = .null := by
  have hread : (array (nullable string)).decodeLiteral
      (.list [.scalar "NULL", .null, .scalar ""]) =
        .ok (.array [.string "NULL", .null, .string ""]) := rfl
  rcases (decode_eq_null_iff (array (nullable string))).2.2.2 _ _ hread [.item 1] with ⟨-, hvalue⟩
  rcases hvalue .null rfl with ⟨u, x, hu, hx, hdecode, hnull⟩
  exact ⟨hread, u, x, hu, hx, hdecode, (hnull.1 rfl).1⟩

end ColumnType

end ColumnStore
