import ColumnStore.ColumnType.Check
import ColumnStore.Proofs.ColumnType.Absence
import ColumnStore.Proofs.Except.Basic

/-!
# What Types May Enclose

Some types may not stand in a wrapper, and another wrapper between the two does not make it
better: content that is stored once for each value cannot be stored so again, and a composite
value that is stored so cannot be absent either. The check of a type goes through all types
inside of it, but of a wrapper it only looks at the type right below. So it finds everything
that is wrong with the types themselves, and what is wrong with a wrapper unless another
wrapper hides it.

Two nestings stay hidden: the absence of content added to a map or a tuple that is stored by
value, and storage by value around absence that is added to storage by value. Nothing else
does, since an array in either wrapper is met on the way by the wrapper right above it.

## Main definitions

* `ColumnType.Within`: A type inside of another one.
* `ColumnType.Obeys`: What is demanded of a type, and how far its wrappers look.
* `ColumnType.IsAdmitted`, `ColumnType.IsSound`: Wrappers that look one step down, and those
  that look through each other.
* `ColumnType.HidesFault`: The nestings that stay hidden.

## Theorems

* `ColumnType.check_eq_ok_iff`: What the check accepts.
* `ColumnType.isSound_of_admitted`: What is wrong with a type whose parts are accepted.
* `ColumnType.sound_iff_check`: All types inside are sound if they are accepted and hide nothing.
-/

namespace ColumnStore

namespace ColumnType

variable {t u : ColumnType}

/-! ## Types inside of types -/

/-- A type that stands inside of another one at any depth, or is that one. -/
inductive Within (u : ColumnType) : ColumnType → Prop
  /-- The type itself. -/
  | self : Within u u
  /-- In the items of an array. -/
  | array {t : ColumnType} (h : Within u t) : Within u (array t)
  /-- In an element of a tuple. -/
  | tuple {ts : List (Option String × ColumnType)} {e : Option String × ColumnType}
      (he : e ∈ ts) (h : Within u e.2) : Within u (tuple ts)
  /-- In the keys of a map. -/
  | key {k x : ColumnType} (h : Within u k) : Within u (map k x)
  /-- In the values of a map. -/
  | value {k x : ColumnType} (h : Within u x) : Within u (map k x)
  /-- In what may be absent. -/
  | nullable {t : ColumnType} (h : Within u t) : Within u (nullable t)
  /-- In what is stored by value. -/
  | lowCardinality {t : ColumnType} (h : Within u t) : Within u (lowCardinality t)

theorem Within.trans {v : ColumnType} (h : Within v u) (hu : Within u t) : Within v t := by
  induction hu with
  | self => exact h
  | array _ ih => exact .array ih
  | tuple he _ ih => exact .tuple he ih
  | key _ ih => exact .key ih
  | value _ ih => exact .value ih
  | nullable _ ih => exact .nullable ih
  | lowCardinality _ ih => exact .lowCardinality ih

section Within

variable {P : ColumnType → Prop}

theorem forall_within_scalar (ht : t.IsScalar) : (∀ u, Within u t → P u) ↔ P t := by
  refine ⟨fun h => h t .self, fun h u hu => ?_⟩
  cases hu with
  | self => exact h
  | _ => cases ht

theorem forall_within_array :
    (∀ u, Within u (array t) → P u) ↔ P (array t) ∧ ∀ u, Within u t → P u := by
  refine ⟨fun h => ⟨h _ .self, fun u hu => h u (.array hu)⟩, fun h u hu => ?_⟩
  cases hu with
  | self => exact h.1
  | array hu => exact h.2 u hu

theorem forall_within_tuple {ts : List (Option String × ColumnType)} :
    (∀ u, Within u (tuple ts) → P u) ↔ P (tuple ts) ∧ ∀ e ∈ ts, ∀ u, Within u e.2 → P u := by
  refine ⟨fun h => ⟨h _ .self, fun e he u hu => h u (.tuple he hu)⟩, fun h u hu => ?_⟩
  cases hu with
  | self => exact h.1
  | tuple he hu => exact h.2 _ he u hu

theorem forall_within_map {k x : ColumnType} : (∀ u, Within u (map k x) → P u) ↔
    P (map k x) ∧ (∀ u, Within u k → P u) ∧ ∀ u, Within u x → P u := by
  constructor
  · intro h
    exact ⟨h _ .self, fun u hu => h u (.key hu), fun u hu => h u (.value hu)⟩
  · intro h u hu
    cases hu with
    | self => exact h.1
    | key hu => exact h.2.1 u hu
    | value hu => exact h.2.2 u hu

theorem forall_within_nullable :
    (∀ u, Within u (nullable t) → P u) ↔ P (nullable t) ∧ ∀ u, Within u t → P u := by
  refine ⟨fun h => ⟨h _ .self, fun u hu => h u (.nullable hu)⟩, fun h u hu => ?_⟩
  cases hu with
  | self => exact h.1
  | nullable hu => exact h.2 u hu

theorem forall_within_lowCardinality :
    (∀ u, Within u (lowCardinality t) → P u) ↔ P (lowCardinality t) ∧ ∀ u, Within u t → P u := by
  refine ⟨fun h => ⟨h _ .self, fun u hu => h u (.lowCardinality hu)⟩, fun h u hu => ?_⟩
  cases hu with
  | self => exact h.1
  | lowCardinality hu => exact h.2 u hu

end Within

/-! ## What is demanded -/

/-- A type without the absence of content that was added to it. -/
def content : ColumnType → ColumnType
  | nullable t => content t
  | t => t

/-- A type that cannot be stored by value: one that is stored so already, or an array. -/
def BarsStorage : ColumnType → Prop
  | lowCardinality _ => True
  | array _ => True
  | _ => False

/-- What is demanded of a type apart from the types inside of it. A wrapper looks at what
    `absent` or `stored` makes of the type that it encloses. -/
def Obeys (absent stored : ColumnType → ColumnType) : ColumnType → Prop
  | decimal p s => 1 ≤ p.toNat ∧ p.toNat ≤ 38 ∧ s.toNat ≤ p.toNat
  | enum size members =>
    members ≠ [] ∧ (size = .byte → ∀ m ∈ members, -128 ≤ m.2.toInt ∧ m.2.toInt ≤ 127)
  | tuple ts => (ts.filterMap (·.1)).Nodup
  | nullable t => ¬ (absent t).IsComposite
  | lowCardinality t => ¬ (stored t).BarsStorage
  | _ => True

/-- Where wrappers look at the type right below. -/
def IsAdmitted : ColumnType → Prop :=
  Obeys id id

/-- Where wrappers look through each other. -/
def IsSound : ColumnType → Prop :=
  Obeys stripped content

/-- A wrapper with another one below that hides what it may not enclose. -/
def HidesFault : ColumnType → Prop
  | nullable (lowCardinality (map _ _)) => True
  | nullable (lowCardinality (tuple _)) => True
  | lowCardinality (nullable t) => ∃ v, t.content = lowCardinality v
  | _ => False

/-! ## The check -/

theorem check_decimal {p s : UInt8} :
    (decimal p s).check = .ok () ↔ (decimal p s).IsAdmitted := by
  have hone : (1 : UInt8).toNat = 1 := rfl
  have hlimit : (38 : UInt8).toNat = 38 := rfl
  show _ ↔ 1 ≤ p.toNat ∧ p.toNat ≤ 38 ∧ s.toNat ≤ p.toNat
  rw [check, ite_error_eq_ok_iff, ite_error_eq_ok_iff]
  simp [UInt8.le_iff_toNat_le, UInt8.lt_iff_toNat_lt, hone, hlimit, and_assoc,
    Nat.one_le_iff_ne_zero]

theorem fitsByte_iff {n : Int16} : fitsByte n = true ↔ -128 ≤ n.toInt ∧ n.toInt ≤ 127 := by
  simp [fitsByte]

theorem check_enum {size : EnumSize} {members : List (String × Int16)} :
    (enum size members).check = .ok () ↔ (enum size members).IsAdmitted := by
  show _ ↔ members ≠ [] ∧ (size = .byte → ∀ m ∈ members, -128 ≤ m.2.toInt ∧ m.2.toInt ≤ 127)
  rw [check, ite_error_eq_ok_iff, ite_error_eq_ok_iff]
  simp [← fitsByte_iff]

/-- The elements of a tuple are accepted if their types are, no two of them have the same
    name, and no name was seen before. -/
theorem checkElements_eq_ok_iff {seen : List String} {ts : List (Option String × ColumnType)} :
    checkElements seen ts = .ok () ↔ (ts.filterMap (·.1)).Nodup ∧
      (∀ n ∈ ts.filterMap (·.1), n ∉ seen) ∧ ∀ e ∈ ts, e.2.check = .ok () := by
  induction ts generalizing seen with
  | nil => simp [checkElements]
  | cons e ts ih =>
    obtain ⟨name, t⟩ := e
    cases name with
    | none =>
      rw [checkElements, check_bind_eq_ok_iff, ih, List.filterMap_cons_none rfl,
        List.forall_mem_cons]
      tauto
    | some n =>
      have hguard : checkElements seen ((some n, t) :: ts) = .ok () ↔
          n ∉ seen ∧ t.check = .ok () ∧ checkElements (n :: seen) ts = .ok () := by
        rw [checkElements, ← check_bind_eq_ok_iff]
        by_cases hn : n ∈ seen
        · simp only [List.contains_iff_mem, hn, if_true, not_true, false_and, iff_false]
          exact nofun
        · simp [hn]
      have hfresh : (∀ m ∈ ts.filterMap (·.1), m ∉ n :: seen) ↔
          n ∉ ts.filterMap (·.1) ∧ ∀ m ∈ ts.filterMap (·.1), m ∉ seen := by
        simp only [List.mem_cons, not_or, forall_and, ← ne_eq]
        exact and_congr_left fun _ => List.forall_mem_ne'
      have hnames : ((some n, t) :: ts).filterMap (·.1) = n :: ts.filterMap (·.1) := rfl
      rw [hguard, ih, hfresh, hnames, List.nodup_cons, List.forall_mem_cons, List.forall_mem_cons]
      tauto

theorem check_nullable : (nullable t).check = .ok () ↔ ¬ t.IsComposite ∧ t.check = .ok () := by
  cases t with
  | array | map | tuple => exact iff_of_false nofun fun h => h.1 trivial
  | _ => exact (and_iff_right (by intro h; exact h)).symm

theorem check_lowCardinality :
    (lowCardinality t).check = .ok () ↔ ¬ t.BarsStorage ∧ t.check = .ok () := by
  cases t with
  | array | lowCardinality => exact iff_of_false nofun fun h => h.1 trivial
  | _ => exact (and_iff_right (by intro h; exact h)).symm

theorem check_map {k x : ColumnType} :
    (map k x).check = .ok () ↔ k.check = .ok () ∧ x.check = .ok () := by
  rw [check, check_bind_eq_ok_iff]

/-- A type is accepted exactly if all types inside of it are as demanded, where wrappers
    look at the type right below. -/
theorem check_eq_ok_iff (t : ColumnType) : t.check = .ok () ↔ ∀ u, Within u t → u.IsAdmitted := by
  induction t using mem_induction with
  | scalar t ht =>
    rw [forall_within_scalar ht]
    cases t with
    | decimal p s => exact check_decimal
    | enum size members => exact check_enum
    | array | tuple | map | nullable | lowCardinality => cases ht
    | _ => exact iff_of_true rfl trivial
  | array t ih =>
    rw [forall_within_array, ← ih]
    exact (and_iff_right trivial).symm
  | tuple ts ih =>
    rw [forall_within_tuple, check, checkElements_eq_ok_iff]
    refine and_congr_right fun _ => ?_
    rw [and_iff_right (by simp)]
    exact forall₂_congr ih
  | map k x ihk ihx =>
    rw [forall_within_map, check_map, ihk, ihx]
    exact (and_iff_right trivial).symm
  | nullable t ih =>
    rw [forall_within_nullable, check_nullable, ih]
    rfl
  | lowCardinality t ih =>
    rw [forall_within_lowCardinality, check_lowCardinality, ih]
    rfl

/-! ## What stays hidden -/

theorem IsComposite.stripped (ht : t.IsComposite) : t.stripped.IsComposite := by
  cases t with
  | array | tuple | map => exact ht
  | _ => cases ht

theorem BarsStorage.content (ht : t.BarsStorage) : t.content.BarsStorage := by
  cases t with
  | array | lowCardinality => exact ht
  | _ => cases ht

/-- What a wrapper may enclose where it looks through others it may enclose where it does not. -/
theorem IsSound.isAdmitted (h : t.IsSound) : t.IsAdmitted := by
  cases t with
  | nullable t => exact fun ht => h (IsComposite.stripped ht)
  | lowCardinality t => exact fun ht => h (BarsStorage.content ht)
  | _ => exact h

theorem IsSound.not_hidesFault (h : t.IsSound) : ¬ t.HidesFault := by
  intro hhides
  unfold HidesFault at hhides
  split at hhides
  · exact h trivial
  · exact h trivial
  · next t =>
    rcases hhides with ⟨v, hv⟩
    refine h ?_
    rw [content, hv]
    trivial
  · exact hhides

/-- Below the absence of content stands an array only where a wrapper encloses one that may
    not. -/
theorem content_ne_array (h : ∀ u, Within u (nullable t) → u.IsAdmitted) (v : ColumnType) :
    t.content ≠ array v := by
  induction t using mem_induction with
  | nullable t ih => exact ih fun u hu => h u (.nullable hu)
  | array t _ => exact absurd trivial (h _ .self)
  | scalar t ht =>
    cases t with
    | array => cases ht
    | nullable => cases ht
    | _ => exact nofun
  | _ => exact nofun

/-- Where the types inside are accepted, a type is sound unless it hides its fault. -/
theorem isSound_of_admitted (h : ∀ u, Within u t → u.IsAdmitted) (hhides : ¬ t.HidesFault) :
    t.IsSound := by
  have hself := h t .self
  cases t with
  | nullable t =>
    intro ht
    cases t with
    | lowCardinality t =>
      -- What is stored by value is neither stored so again nor an array.
      have hstored := h _ (.nullable .self)
      cases t with
      | lowCardinality | array => exact hstored trivial
      | map | tuple => exact hhides trivial
      | _ => exact ht
    | _ => exact hself ht
  | lowCardinality t =>
    intro ht
    cases t with
    | nullable t =>
      rw [content] at ht
      cases hc : t.content with
      | array v => exact content_ne_array (fun u hu => h u (.lowCardinality hu)) v hc
      | lowCardinality v => exact hhides ⟨v, hc⟩
      | _ =>
        rw [hc] at ht
        exact ht
    | _ => exact hself ht
  | _ => exact hself

/-- The check accepts a type exactly if every type inside of it is as demanded, where wrappers
    look at the type right below. So all types inside are sound, with wrappers that look through
    each other, exactly if the check accepts the type and no wrapper in it hides a fault: neither
    the absence of content around a map or a tuple that is stored by value, nor storage by value
    around absence, added once or more often, around storage by value. -/
theorem sound_iff_check (t : ColumnType) :
    (t.check = .ok () ↔ ∀ u, Within u t → u.IsAdmitted) ∧
      ((∀ u, Within u t → u.IsSound) ↔
        t.check = .ok () ∧ ∀ u, Within u t → ¬ u.HidesFault) := by
  refine ⟨check_eq_ok_iff t, ?_⟩
  rw [check_eq_ok_iff]
  constructor
  · intro h
    exact ⟨fun u hu => (h u hu).isAdmitted, fun u hu => (h u hu).not_hidesFault⟩
  · rintro ⟨hadmitted, hhides⟩ u hu
    exact isSound_of_admitted (fun v hv => hadmitted v (hv.trans hu)) (hhides u hu)

/-- A map that is stored by value is accepted where it may be absent. -/
theorem absent_map_is_accepted :
    (nullable (lowCardinality (map string string))).check = .ok () ∧
      ∃ u, Within u (nullable (lowCardinality (map string string))) ∧ ¬ u.IsSound :=
  ⟨rfl, _, .self, fun h => h trivial⟩

end ColumnType

end ColumnStore
