import ColumnStore.Proofs.ColumnType.Tasks
import Mathlib.Data.Prod.Lex

/-!
# Reading Ends

Where a composite value is to be read, a scalar is opened, and what is in it is read as a text
once more. Such a text need not be shorter than the one before: a bare word is read as itself,
and reading it in place of a composite value goes round and round. This is the only way not to
come to an end. Every other scalar is shorter than the text that it was found in, and whatever
is not opened is read as a smaller type.

So two things get smaller in turn, the type and then the text. The quotes that are taken off on
the way are counted against the text: they take up room in it, and the scalars of one literal
share the room that the literal has.

## Main definitions

* `Literal.HoldsWord`: A text that is a bare word once all quotes are taken off.
* `Task.Stays`: The calls that do not go to a smaller type.
* `Task.Loops`: The tasks that go round.
* `Task.room`: The characters that a task can take quotes off from.
* `Stage.AsksNoWord`: No text that holds a bare word is read in place of a composite value.

## Theorems

* `Task.stays_or_smaller`: What the calls of a task are for.
* `Task.scalars_subset`: Where the scalars inside of a literal are from.
* `Task.unquotes_add_room_le`: The calls of a task share its room.
* `Stage.yields_of_asksNoWord`: Without a bare word in place of a composite value, a task is done
  within its room.
* `Task.reading_ends`: When reading ends, and what it takes.
-/

namespace ColumnStore

namespace ColumnType

variable {t u v : ColumnType}

theorem within_stripped (t : ColumnType) : Within t.stripped t := by
  induction t using mem_induction with
  | scalar t ht =>
    cases t with
    | lowCardinality => cases ht
    | _ => exact .self
  | lowCardinality t ih => exact .lowCardinality ih
  | _ => exact .self

theorem stripped_stripped (t : ColumnType) : t.stripped.stripped = t.stripped := by
  cases h : t.stripped with
  | lowCardinality u => exact absurd h (stripped_ne_lowCardinality t u)
  | _ => rfl

theorem sizeOf_element_lt {ts : List (Option String × ColumnType)} {e : Option String × ColumnType}
    (he : e ∈ ts) : sizeOf e.2 < sizeOf (tuple ts) := by
  have hlt := List.sizeOf_lt_of_mem he
  obtain ⟨name, t⟩ := e
  simp only [tuple.sizeOf_spec, Prod.mk.sizeOf_spec] at *
  omega

theorem Within.sizeOf_le (h : Within u t) : sizeOf u ≤ sizeOf t := by
  induction h with
  | self => exact Nat.le_refl _
  | tuple he _ ih => exact Nat.le_trans ih (Nat.le_of_lt (sizeOf_element_lt he))
  | _ =>
    simp only [array.sizeOf_spec, map.sizeOf_spec, nullable.sizeOf_spec,
      lowCardinality.sizeOf_spec]
    omega

/-- A part of a type, apart from wrappers that only say how it is stored, is a smaller type. -/
theorem smaller_of_stripped (h : t.stripped = v) (hu : Within u v) (hlt : sizeOf u < sizeOf v) :
    Within u t ∧ sizeOf u < sizeOf t := by
  subst h
  exact ⟨hu.trans (within_stripped t), Nat.lt_of_lt_of_le hlt (within_stripped t).sizeOf_le⟩

end ColumnType

namespace Literal

variable {s : List Char} {t : String} {l : Literal}

theorem scalars_subset_of_mem {items : List Literal} (h : l ∈ items) :
    l.scalars ⊆ (list items).scalars := by
  induction items with
  | nil => cases h
  | cons l' items ih =>
    intro t ht
    rcases List.mem_cons.1 h with rfl | h
    · exact List.mem_append_left _ ht
    · exact List.mem_append_right _ (ih h ht)

theorem scalars_subset_of_mem_map {entries : List (Literal × Literal)} {e : Literal × Literal}
    (h : e ∈ entries) :
    e.1.scalars ⊆ (map entries).scalars ∧ e.2.scalars ⊆ (map entries).scalars := by
  induction entries with
  | nil => cases h
  | cons e' entries ih =>
    rcases List.mem_cons.1 h with rfl | h
    · refine ⟨fun t ht => List.mem_append_left _ ht, fun t ht => ?_⟩
      exact List.mem_append_right _ (List.mem_append_left _ ht)
    · refine ⟨fun t ht => ?_, fun t ht => ?_⟩
      · exact List.mem_append_right _ (List.mem_append_right _ ((ih h).1 ht))
      · exact List.mem_append_right _ (List.mem_append_right _ ((ih h).2 ht))

/-- A text that is a bare word once all quotes are taken off. -/
inductive HoldsWord : List Char → Prop
  /-- A bare word. -/
  | word {s : List Char} (h : IsBareWord s) : HoldsWord s
  /-- A scalar with such a text. -/
  | quoted {s : List Char} {t : String} (h : read s = .ok (.scalar t)) (ht : HoldsWord t.toList) :
      HoldsWord s

/-- Opening such a text goes on for ever. -/
theorem HoldsWord.read (h : HoldsWord s) : ∃ t, read s = .ok (.scalar t) ∧ HoldsWord t.toList := by
  cases h with
  | word h =>
    refine ⟨_, read_of_isBareWord h, ?_⟩
    rw [String.toList_ofList]
    exact .word h
  | quoted h ht => exact ⟨_, h, ht⟩

/-- Opening any other text makes it shorter. -/
theorem length_lt_of_not_holdsWord (hs : ¬ HoldsWord s) (h : read s = .ok (.scalar t)) :
    t.toList.length < s.length ∧ ¬ HoldsWord t.toList := by
  refine ⟨?_, fun ht => hs (.quoted h ht)⟩
  rcases length_lt_of_read h with hlt | ⟨hword, -⟩
  · exact hlt t List.mem_cons_self
  · exact absurd (.word hword) hs

/-- The characters that quotes can be taken off from: a bare word has none but its own. -/
def room : Literal → Nat
  | scalar t => if IsBareWord t.toList then t.toList.length else t.toList.length + 1
  | l => l.extent

theorem room_le_extent (l : Literal) : l.room ≤ l.extent := by
  cases l with
  | scalar t =>
    rw [room, extent_scalar]
    split
    · exact Nat.le_succ _
    · exact Nat.le_refl _
  | _ => exact Nat.le_refl _

theorem room_le_of_read (h : Literal.read s = .ok l) : l.room ≤ s.length := by
  rcases extent_le_of_read h with hle | ⟨hword, rfl⟩
  · exact Nat.le_trans l.room_le_extent hle
  · rw [room, String.toList_ofList, if_pos hword]

end Literal

namespace Task

open ColumnType

variable {k k' : Task}

/-- The calls that do not go to a smaller type: a text is read as a literal, and a scalar in
    place of a composite value is a text again. -/
inductive Stays : Task → Task → Prop
  /-- The text of a composite value is in literal notation. -/
  | composite {t : ColumnType} {s : List Char} (ht : t.stripped.IsComposite) :
      Stays (text t s) (sql t s)
  /-- The literal of a text. -/
  | found {t : ColumnType} {s : List Char} {l : Literal} (h : Literal.read s = .ok l) :
      Stays (sql t s) (literal t l)
  /-- What stands in quotes. -/
  | unquoted {t : ColumnType} {s : String} (ht : t.stripped.IsComposite) :
      Stays (literal t (.scalar s)) (text t.stripped s.toList)

/-- Every call of a task goes to a smaller type, or it goes from a text to its literal or from
    a scalar to its text. -/
theorem stays_or_smaller (h : k' ∈ k.plan.asks) :
    k.Stays k' ∨ Within k'.type k.type ∧ sizeOf k'.type < sizeOf k.type := by
  cases k with
  | text t s =>
    have hstays {v : ColumnType} (ht : t.stripped = v) (hv : v.IsComposite)
        (h : k' ∈ [sql t s]) : (text t s).Stays k' := by
      cases List.mem_singleton.1 h
      exact .composite (ht ▸ hv)
    unfold plan at h
    dsimp only at h
    split at h
    · next u ht =>
      cases List.mem_singleton.1 h
      exact Or.inr (smaller_of_stripped ht (.nullable .self) (by simp [type]))
    · next ht => exact Or.inl (hstays ht trivial h)
    · next ht => exact Or.inl (hstays ht trivial h)
    · next ht => exact Or.inl (hstays ht trivial h)
    · cases h
  | sql t s =>
    unfold plan at h
    dsimp only at h
    split at h
    · next l hread =>
      cases List.mem_singleton.1 h
      exact Or.inl (.found hread)
    · cases h
  | literal t l =>
    have hstays {v : ColumnType} {s : String} (ht : t.stripped = v) (hv : v.IsComposite)
        (h : k' ∈ [text v s.toList]) : (literal t (.scalar s)).Stays k' := by
      cases List.mem_singleton.1 h
      subst ht
      exact .unquoted hv
    unfold plan at h
    dsimp only at h
    split at h
    · cases h
    · next u ht _ =>
      cases List.mem_singleton.1 h
      exact Or.inr (smaller_of_stripped ht (.nullable .self) (by simp [type]))
    · cases h
    · next u items ht =>
      rcases List.mem_map.1 h with ⟨l, -, rfl⟩
      exact Or.inr (smaller_of_stripped ht (.array .self) (by simp [type]))
    · next ts items ht =>
      split at h
      · rcases List.mem_map.1 h with ⟨⟨e, l⟩, hp, rfl⟩
        have he := (List.of_mem_zip hp).1
        exact Or.inr (smaller_of_stripped ht (.tuple he .self) (sizeOf_element_lt he))
      · cases h
    · next v x entries ht =>
      rcases List.mem_flatMap.1 h with ⟨e, -, h⟩
      rcases List.mem_pair.1 h with rfl | rfl
      · exact Or.inr (smaller_of_stripped ht (.key .self) (by simp [type]; omega))
      · exact Or.inr (smaller_of_stripped ht (.value .self) (by simp [type]))
    · next ht => exact Or.inl (hstays ht trivial h)
    · next ht => exact Or.inl (hstays ht trivial h)
    · next ht => exact Or.inl (hstays ht trivial h)
    · cases h
    · cases h

/-- What is read inside of a literal has no scalars of its own. -/
theorem scalars_subset {t u : ColumnType} {l x : Literal}
    (h : literal u x ∈ (literal t l).plan.asks) : x.scalars ⊆ l.scalars := by
  unfold plan at h
  dsimp only at h
  split at h
  · cases h
  · cases List.mem_singleton.1 h
    exact List.Subset.refl _
  · cases h
  · rcases List.mem_map.1 h with ⟨l, hl, hpair⟩
    cases hpair
    exact Literal.scalars_subset_of_mem hl
  · split at h
    · rcases List.mem_map.1 h with ⟨p, hp, hpair⟩
      cases hpair
      exact Literal.scalars_subset_of_mem (List.of_mem_zip hp).2
    · cases h
  · rcases List.mem_flatMap.1 h with ⟨e, he, h⟩
    rcases List.mem_pair.1 h with hpair | hpair
    · cases hpair
      exact (Literal.scalars_subset_of_mem_map he).1
    · cases hpair
      exact (Literal.scalars_subset_of_mem_map he).2
  · cases List.mem_singleton.1 h
  · cases List.mem_singleton.1 h
  · cases List.mem_singleton.1 h
  · cases h
  · cases h

/-- A task that goes round: a bare word, in quotes or not, in place of a composite value. -/
def Loops : Task → Prop
  | text t s => t.stripped.IsComposite ∧ Literal.HoldsWord s
  | sql t s => t.stripped.IsComposite ∧ Literal.HoldsWord s
  | literal t (.scalar s) => t.stripped.IsComposite ∧ Literal.HoldsWord s.toList
  | literal _ _ => False

theorem plan_text {t : ColumnType} (ht : t.stripped.IsComposite) (s : List Char) :
    (text t s).plan = .next (sql t s) := by
  unfold plan
  dsimp only
  cases h : t.stripped with
  | array | tuple | map => rfl
  | _ =>
    rw [h] at ht
    cases ht

theorem plan_scalar {t : ColumnType} (ht : t.stripped.IsComposite) (s : String) :
    (literal t (.scalar s)).plan = .next (text t.stripped s.toList) := by
  unfold plan
  dsimp only
  cases h : t.stripped with
  | array | tuple | map => rfl
  | _ =>
    rw [h] at ht
    cases ht

theorem plan_sql {s : List Char} {l : Literal} (h : Literal.read s = .ok l) (t : ColumnType) :
    (sql t s).plan = .next (literal t l) := by
  unfold plan
  dsimp only
  rw [h]

/-- A task that goes round calls nothing but another one. -/
theorem Loops.plan (h : k.Loops) : ∃ k', k.plan = .next k' ∧ k'.Loops := by
  cases k with
  | text t s => exact ⟨_, plan_text h.1 s, h⟩
  | sql t s =>
    rcases h.2.read with ⟨w, hread, hw⟩
    exact ⟨_, plan_sql hread t, h.1, hw⟩
  | literal t l =>
    cases l with
    | scalar s =>
      refine ⟨_, plan_scalar h.1 s, ?_, h.2⟩
      rw [stripped_stripped]
      exact h.1
    | _ => cases h

theorem unquotes_eq_one {t : ColumnType} (ht : t.stripped.IsComposite) (s : String) :
    (literal t (.scalar s)).unquotes = 1 := by
  unfold unquotes
  rw [plan_scalar ht]

theorem unquotes_eq_zero {t : ColumnType} (ht : ¬ t.stripped.IsComposite) (l : Literal) :
    (literal t l).unquotes = 0 := by
  unfold unquotes plan
  dsimp only
  cases h : t.stripped with
  | array | tuple | map =>
    rw [h] at ht
    exact absurd trivial ht
  | _ => cases l <;> rfl

/-- What gets smaller among calls for one type. A text comes before its literal, and a literal
    counts if there are quotes to be taken off. -/
def weight : Task → Nat
  | text _ s => 3 * s.length + 2
  | sql _ s => 3 * s.length + 1
  | literal t (.scalar s) => (literal t (.scalar s)).unquotes * (3 * s.toList.length + 3)
  | literal _ _ => 0

/-- Unless a task goes round, its calls are for smaller types or weigh less. -/
theorem smaller_or_weight_lt (h : k' ∈ k.plan.asks) (hloops : ¬ k.Loops) :
    sizeOf k'.type < sizeOf k.type ∨
      sizeOf k'.type = sizeOf k.type ∧ k'.weight < k.weight := by
  rcases stays_or_smaller h with hstays | ⟨-, hlt⟩
  · cases hstays with
    | composite ht => exact Or.inr ⟨rfl, Nat.lt_succ_self _⟩
    | @found t s l hread =>
      refine Or.inr ⟨rfl, ?_⟩
      cases l with
      | scalar w =>
        rw [weight, weight]
        by_cases ht : t.stripped.IsComposite
        · have hlt := (Literal.length_lt_of_not_holdsWord (fun hs => hloops ⟨ht, hs⟩) hread).1
          rw [unquotes_eq_one ht]
          omega
        · rw [unquotes_eq_zero ht, Nat.zero_mul]
          exact Nat.succ_pos _
      | _ => exact Nat.succ_pos _
    | @unquoted t s ht =>
      refine (within_stripped t).sizeOf_le.lt_or_eq.imp_right fun hsize => ⟨hsize, ?_⟩
      rw [weight, weight, unquotes_eq_one ht]
      omega
  · exact Or.inl hlt

/-- The calls of tasks that do not go round come to an end. -/
theorem asks_wellFounded : WellFounded fun k' k : Task => k' ∈ k.plan.asks ∧ ¬ k.Loops := by
  have hwf : WellFounded (Prod.Lex (· < ·) (· < ·) : Nat × Nat → Nat × Nat → Prop) :=
    wellFounded_lt.prod_lex wellFounded_lt
  refine Subrelation.wf ?_ (InvImage.wf (fun k : Task => (sizeOf k.type, k.weight)) hwf)
  rintro k' k ⟨h, hloops⟩
  exact Prod.lex_def.2 (smaller_or_weight_lt h hloops)

/-- The characters that quotes can be taken off from. -/
def room : Task → Nat
  | text _ s => s.length
  | sql _ s => s.length
  | literal _ l => l.room

theorem sum_room_le {α : Type} (f : α → Task) (g : α → Nat) (xs : List α)
    (h : ∀ x ∈ xs, (f x).room ≤ g x) : ((xs.map f).map room).sum ≤ (xs.map g).sum := by
  rw [List.map_map]
  exact List.sum_le_sum h

theorem sum_room_pairs_le (k x : ColumnType) (entries : List (Literal × Literal)) :
    ((entries.flatMap fun e => [literal k e.1, literal x e.2]).map room).sum ≤
      (entries.map fun e => e.1.extent + e.2.extent).sum := by
  induction entries with
  | nil => exact Nat.le_refl _
  | cons e es ih =>
    rw [List.flatMap_cons, List.map_append, List.sum_append, List.map_cons, List.sum_cons]
    refine Nat.add_le_add (Nat.add_le_add e.1.room_le_extent ?_) ih
    exact e.2.room_le_extent

/-- The calls of a task share its room, and there is some for the quotes that it takes off. -/
theorem unquotes_add_room_le (hloops : ¬ k.Loops) :
    k.unquotes + (k.plan.asks.map room).sum ≤ k.room := by
  cases k with
  | text t s =>
    unfold unquotes plan
    dsimp only
    cases t.stripped with
    | nullable | array | tuple | map => exact Nat.le_of_eq (Nat.zero_add _)
    | _ => exact Nat.zero_le _
  | sql t s =>
    unfold unquotes plan
    dsimp only
    cases h : Literal.read s with
    | error e => exact Nat.zero_le _
    | ok l =>
      refine Nat.le_trans (Nat.le_of_eq (Nat.zero_add _)) ?_
      exact Literal.room_le_of_read h
  | literal t l =>
    -- A bare word would go round.
    have hscalar {s : String} (ht : t.stripped.IsComposite)
        (hloops : ¬ (literal t (.scalar s)).Loops) : 1 + (s.toList.length + 0) ≤
          (Literal.scalar s).room := by
      rw [Literal.room, if_neg fun hword => hloops ⟨ht, .word hword⟩]
      omega
    unfold unquotes plan
    dsimp only
    cases ht : t.stripped with
    | nullable u =>
      cases l with
      | null => exact Nat.zero_le _
      | _ => exact Nat.le_of_eq (Nat.zero_add _)
    | array u =>
      cases l with
      | scalar s => exact hscalar (ht ▸ trivial) hloops
      | list items =>
        refine Nat.le_trans (Nat.le_of_eq (Nat.zero_add _)) ?_
        refine Nat.le_trans (sum_room_le _ _ items fun l _ => l.room_le_extent) ?_
        exact Nat.le_of_eq (Literal.extent_list items).symm
      | _ => exact Nat.zero_le _
    | tuple ts =>
      cases l with
      | scalar s => exact hscalar (ht ▸ trivial) hloops
      | list items =>
        dsimp only
        by_cases hlength : ts.length = items.length
        · rw [if_pos hlength]
          refine Nat.le_trans (Nat.le_of_eq (Nat.zero_add _)) ?_
          refine Nat.le_trans (sum_room_le _ (Literal.extent ∘ Prod.snd) _ fun p _ =>
            p.2.room_le_extent) ?_
          rw [← List.map_map, List.map_snd_zip (Nat.le_of_eq hlength.symm)]
          exact Nat.le_of_eq (Literal.extent_list items).symm
        · rw [if_neg hlength]
          exact Nat.zero_le _
      | _ => exact Nat.zero_le _
    | map k x =>
      cases l with
      | scalar s => exact hscalar (ht ▸ trivial) hloops
      | map entries =>
        refine Nat.le_trans (Nat.le_of_eq (Nat.zero_add _)) ?_
        refine Nat.le_trans (sum_room_pairs_le k x entries) ?_
        exact Nat.le_of_eq (Literal.extent_map entries).symm
      | _ => exact Nat.zero_le _
    | _ => cases l <;> exact Nat.zero_le _

end Task

/-! ## Carrying out tasks -/

namespace Stage

open ColumnType ColumnStore.Task

variable {k : Task} {waiting : List Frame} {g : Stage} {r : Except CodecError Value} {m : Nat}

/-- No text that is a bare word, in quotes or not, is ever read in place of a composite value. -/
def AsksNoWord (g : Stage) : Prop :=
  ∀ n t s waiting, step^[n] g = asking (.text t s) waiting → t.stripped.IsComposite →
    ¬ Literal.HoldsWord s

theorem AsksNoWord.iterate (h : g.AsksNoWord) (n : Nat) : (step^[n] g).AsksNoWord := by
  intro m t s waiting hm
  exact h (m + n) t s waiting (by rw [Function.iterate_add_apply, hm])

theorem step_of_plan {k' : Task} (h : k.plan = .next k') (waiting : List Frame) :
    step (asking k waiting) = asking k' waiting := by
  rw [step, h, Plan.start]

/-- What goes round comes to such a text in two steps at most. -/
theorem AsksNoWord.not_loops (h : (asking k waiting).AsksNoWord) : ¬ k.Loops := by
  intro hloops
  cases k with
  | text t s => exact h 0 t s waiting rfl hloops.1 hloops.2
  | sql t s =>
    rcases hloops.2.read with ⟨w, hread, hw⟩
    refine h 2 t.stripped w.toList waiting ?_ ?_ hw
    · rw [Function.iterate_succ_apply, step_of_plan (plan_sql hread t)]
      exact step_of_plan (plan_scalar hloops.1 w) waiting
    · rw [stripped_stripped]
      exact hloops.1
  | literal t l =>
    cases l with
    | scalar w =>
      refine h 1 t.stripped w.toList waiting (step_of_plan (plan_scalar hloops.1 w) waiting) ?_
        hloops.2
      rw [stripped_stripped]
      exact hloops.1
    | _ => cases hloops

/-- What goes round goes on for ever. -/
theorem iterate_of_loops (h : k.Loops) (n : Nat) (waiting : List Frame) :
    ∃ k', step^[n] (asking k waiting) = asking k' waiting := by
  induction n generalizing k with
  | zero => exact ⟨k, rfl⟩
  | succ n ih =>
    rcases h.plan with ⟨k', hplan, hloops⟩
    rw [Function.iterate_succ_apply, step_of_plan hplan]
    exact ih hloops

/-- A stage comes to an answer, and takes off so many quotes at most. -/
def Yields (g : Stage) (r : Except CodecError Value) (waiting : List Frame) (m : Nat) : Prop :=
  ∃ n, step^[n] g = answering r waiting ∧ unquotings n g ≤ m

theorem yields_answering (r : Except CodecError Value) (waiting : List Frame) :
    (answering r waiting).Yields r waiting 0 :=
  ⟨0, rfl, Nat.le_refl _⟩

theorem Yields.of_step (h : g.step.Yields r waiting m) : g.Yields r waiting (g.unquotes + m) := by
  rcases h with ⟨n, hn, hm⟩
  exact ⟨n + 1, hn, Nat.add_le_add_left hm _⟩

theorem Yields.mono {m' : Nat} (h : g.Yields r waiting m) (hle : m ≤ m') :
    g.Yields r waiting m' := by
  rcases h with ⟨n, hn, hm⟩
  exact ⟨n, hn, Nat.le_trans hm hle⟩

theorem Yields.trans {r' : Except CodecError Value} {waiting' : List Frame} {m' : Nat}
    (h : g.Yields r waiting m) (h' : (answering r waiting).Yields r' waiting' m') :
    g.Yields r' waiting' (m + m') := by
  rcases h with ⟨n, hn, hm⟩
  rcases h' with ⟨n', hn', hm'⟩
  refine ⟨n' + n, ?_, ?_⟩
  · rw [Function.iterate_add_apply, hn, hn']
  · rw [Nat.add_comm n', unquotings_add, hn]
    exact Nat.add_le_add hm hm'

/-- A task that waits for others is done once these are. -/
theorem yields_resume {rest : List Task} (hrest : ∀ k ∈ rest, ∀ waiting,
    (asking k waiting).AsksNoWord → (asking k waiting).Yields k.answer waiting k.room)
    {found : List Value} {build : List Value → Value}
    (h : (Frame.resume waiting ⟨found, rest, build⟩).AsksNoWord) :
    (Frame.resume waiting ⟨found, rest, build⟩).Yields
      ((rest.mapM Task.answer).map fun vs => build (found ++ vs)) waiting
      (rest.map room).sum := by
  induction rest generalizing found with
  | nil =>
    have hanswer : (([] : List Task).mapM Task.answer).map (fun vs => build (found ++ vs)) =
        .ok (build found) := by
      rw [List.mapM_nil]
      exact congrArg (Except.ok ∘ build) (List.append_nil found)
    rw [hanswer]
    exact yields_answering _ waiting
  | cons k rest ih =>
    have hfirst := hrest k List.mem_cons_self _ h
    refine hfirst.trans ?_
    rcases hfirst with ⟨n, hn, -⟩
    have hnext : (step (answering k.answer (⟨found, rest, build⟩ :: waiting))).AsksNoWord := by
      have hafter := h.iterate (n + 1)
      rw [Function.iterate_succ_apply'] at hafter
      exact hn ▸ hafter
    rw [List.mapM_cons]
    refine (Yields.of_step (m := (rest.map room).sum) ?_).mono (Nat.le_of_eq (Nat.zero_add _))
    cases hk : k.answer with
    | error e => exact (yields_answering _ waiting).mono (Nat.zero_le _)
    | ok v =>
      rw [hk] at hnext
      have hall := ih (fun k hk => hrest k (List.mem_cons_of_mem _ hk)) hnext
      have hanswer : (do let vs ← rest.mapM Task.answer; pure (v :: vs) :
          Except CodecError (List Value)).map (fun vs => build (found ++ vs)) =
            (rest.mapM Task.answer).map fun vs => build ((found ++ [v]) ++ vs) := by
        cases rest.mapM Task.answer with
        | error e => rfl
        | ok vs => exact congrArg (Except.ok ∘ build) (List.append_cons found v vs)
      exact hanswer ▸ hall

/-- Unless a bare word is asked for, a task is done as the library does it, and takes off quotes
    from its room. -/
theorem yields_of_asksNoWord (h : (asking k waiting).AsksNoWord) :
    (asking k waiting).Yields k.answer waiting k.room := by
  induction k using asks_wellFounded.induction generalizing waiting with
  | _ k ih =>
    have hloops := h.not_loops
    refine Yields.mono (Yields.of_step ?_) (unquotes_add_room_le hloops)
    have hstep := h.iterate 1
    rw [k.answer_eq]
    rw [Function.iterate_one, step] at hstep
    rw [step]
    cases hplan : k.plan with
    | done r => exact yields_answering r waiting
    | next k' =>
      rw [hplan] at hstep
      have hnext := ih k' ⟨by rw [hplan]; exact List.mem_singleton_self k', hloops⟩ hstep
      exact hnext.mono (Nat.le_of_eq (Nat.add_zero _).symm)
    | each ks build =>
      rw [hplan] at hstep
      exact yields_resume (fun k' hk' waiting => ih k' ⟨by rw [hplan]; exact hk', hloops⟩) hstep

end Stage

/-- Every call of a task goes to a smaller type, or it goes from a text to its literal or from
    a scalar to its text. The scalars that are found inside of a literal are scalars of the text
    that the literal is read from, and these are shorter than the text unless it is a bare word.
    So reading ends exactly if no text that is a bare word, in quotes or not, is ever read in
    place of a composite value. Then it gives what the library gives, and takes off no more
    quotes than there are characters. -/
theorem Task.reading_ends (k : Task) :
    (∀ k' ∈ k.plan.asks,
        k.Stays k' ∨ k'.type.Within k.type ∧ sizeOf k'.type < sizeOf k.type) ∧
      (∀ t l u x, literal u x ∈ (literal t l).plan.asks → x.scalars ⊆ l.scalars) ∧
      (∀ s l, Literal.read s = .ok l → (∀ w ∈ l.scalars, w.toList.length < s.length) ∨
        Literal.IsBareWord s ∧ l = .scalar (String.ofList s)) ∧
      ((∃ n r, Stage.step^[n] (.asking k []) = .answering r []) ↔
        (Stage.asking k []).AsksNoWord) ∧
      ∀ n r, Stage.step^[n] (.asking k []) = .answering r [] →
        r = k.answer ∧ Stage.unquotings n (.asking k []) ≤ k.room := by
  have hend {n : Nat} {r : Except CodecError Value}
      (h : Stage.step^[n] (.asking k []) = .answering r []) : (Stage.asking k []).AsksNoWord := by
    -- After a task that goes round no answer would come.
    intro i t s waiting hi ht hs
    rcases Stage.iterate_of_loops (k := .text t s) ⟨ht, hs⟩ n waiting with ⟨k', hk'⟩
    rw [← hi, ← Function.iterate_add_apply, Nat.add_comm, Function.iterate_add_apply, h,
      Stage.iterate_answering] at hk'
    cases hk'
  refine ⟨fun k' hk' => stays_or_smaller hk', fun t l u x h => scalars_subset h,
    fun s l h => Literal.length_lt_of_read h, ⟨fun ⟨n, r, h⟩ => hend h, fun h => ?_⟩,
    fun n r h => ?_⟩
  · rcases Stage.yields_of_asksNoWord h with ⟨n, hn, -⟩
    exact ⟨n, _, hn⟩
  · rcases Stage.yields_of_asksNoWord (hend h) with ⟨n', hn', hm⟩
    rcases Stage.answering_unique h hn' with ⟨hr, hquotes⟩
    exact ⟨hr, Nat.le_trans (Nat.le_of_eq hquotes) hm⟩

/-- A word in place of an array goes round. -/
example : (Task.text (.array .string) ['x']).Loops :=
  ⟨trivial, .word (by decide)⟩

end ColumnStore
