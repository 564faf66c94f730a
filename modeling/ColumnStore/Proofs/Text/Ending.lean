import ColumnStore.Proofs.Text.Reader
import Mathlib.Data.List.Infix
import Mathlib.Data.Option.Basic

/-!
# Readers at the End of a Text

A reader that stops before the end of a text does not see how the text ends. It takes the same
off a text that goes on with a closing bracket as off one that is over, since it goes on with
neither. So what is an argument of a call can be read as a text of its own, and the other way
round.

Readers whose brackets may only nest so deep, or that go over so many items at most, are not
the same for both texts, so two readers are compared: the second one must take what the first
one takes. What a reader looked at without taking it matters as well. A list ends where no
comma follows, so it has to be known what is left.

## Main definitions

* `Text.Closed`, `Text.Parted`: What may be left: nothing, or what starts with a bracket, or
  with a comma or a bracket.
* `Text.Reader.Follows`: A reader takes what another one takes, at another end of the text.

## Theorems

* `Text.readQuotedBody_takes`: What stands in quotes.
* `Text.Reader.Follows.bind`: One item after the other.
* `Text.Reader.Follows.pairOf`, `Text.Reader.Follows.separated1`: Pairs and lists.
* `Text.Reader.Follows.enclosed`: An item in brackets.
-/

namespace ColumnStore

namespace Text

variable {p q a b r s : List Char}

/-- Nothing, or what a bracket closes. -/
def Closed (s : List Char) : Prop :=
  ∀ c ∈ s.head?, c = ')'

/-- Nothing, or what a bracket closes or a comma parts. -/
def Parted (s : List Char) : Prop :=
  ∀ c ∈ s.head?, c = ',' ∨ c = ')'

theorem closed_nil : Closed [] := by
  intro c hc
  cases hc

theorem closed_cons (s : List Char) : Closed (')' :: s) := by
  intro c hc
  cases hc
  rfl

theorem Closed.parted (h : Closed s) : Parted s :=
  fun c hc => Or.inr (h c hc)

/-- Blanks stand before such an end and not in it. -/
theorem skipBlanks_append_of_closed (ha : Closed a) (p : List Char) :
    skipBlanks (p ++ a) = skipBlanks p ++ a := by
  have hskip : skipBlanks a = a := by
    cases a with
    | nil => rfl
    | cons c a =>
      cases ha c rfl
      exact skipBlanks_cons rfl a
  rw [skipBlanks, List.dropWhile_append, ← skipBlanks, ← skipBlanks, hskip]
  split
  · next hempty => rw [List.isEmpty_iff.1 hempty, List.nil_append]
  · rfl

/-- What is left apart from blanks is closed at another end too. -/
theorem Closed.skipBlanks_append (ha : Closed a) (hb : Closed b)
    (h : Closed (skipBlanks (q ++ a))) : Closed (skipBlanks (q ++ b)) := by
  rw [skipBlanks_append_of_closed ha] at h
  rw [skipBlanks_append_of_closed hb]
  cases hq : skipBlanks q with
  | nil => exact hb
  | cons c q' =>
    rw [hq] at h
    exact h

theorem Parted.skipBlanks_append (ha : Closed a) (hb : Closed b)
    (h : Parted (skipBlanks (q ++ a))) : Parted (skipBlanks (q ++ b)) := by
  rw [skipBlanks_append_of_closed ha] at h
  rw [skipBlanks_append_of_closed hb]
  cases hq : skipBlanks q with
  | nil => exact hb.parted
  | cons c q' =>
    rw [hq] at h
    exact h

/-- What a text ends with it ends with after more of it was left. -/
theorem exists_eq_append_of_suffix (h : q ++ a <:+ r) : ∃ u, r = u ++ a := by
  rcases h with ⟨u, rfl⟩
  exact ⟨u ++ q, (List.append_assoc u q a).symm⟩

/-! ## Quotes -/

theorem suffix_of_readQuotedBody {body : List Char}
    (h : readQuotedBody s = some (body, r)) : r <:+ s := by
  have hlonger {s body r : List Char} {c : Char}
      (ih : ∀ {b t}, readQuotedBody s = some (b, t) → t <:+ s)
      (h : (readQuotedBody s).map (fun p => (c :: p.1, p.2)) = some (body, r)) : r <:+ s := by
    rcases Option.map_eq_some_iff.1 h with ⟨⟨b, t⟩, hb, hpair⟩
    cases hpair
    exact ih hb
  fun_induction readQuotedBody s generalizing body r with
  | case1 => cases h
  | case2 s ih => exact (hlonger ih h).trans ⟨['\x27', '\x27'], rfl⟩
  | case3 s =>
    cases h
    exact List.suffix_cons _ _
  | case4 c s ih => exact (hlonger ih h).trans ⟨['\\', c], rfl⟩
  | case5 => cases h
  | case6 c s _ _ _ _ ih => exact (hlonger ih h).trans (List.suffix_cons _ _)

/-- What stands in quotes is the same whatever comes after them. -/
theorem readQuotedBody_takes {body : List Char} (hb : Closed b)
    (h : readQuotedBody (p ++ a) = some (body, q ++ a)) :
    readQuotedBody (p ++ b) = some (body, q ++ b) := by
  have of_longer {c : Char} {s body : List Char}
      (h : (readQuotedBody s).map (fun p => (c :: p.1, p.2)) = some (body, q ++ a)) :
      ∃ u body', s = u ++ a ∧ body = c :: body' ∧ readQuotedBody s = some (body', q ++ a) := by
    rcases Option.map_eq_some_iff.1 h with ⟨⟨body', t⟩, hbody, hpair⟩
    cases hpair
    rcases exists_eq_append_of_suffix (suffix_of_readQuotedBody hbody) with ⟨u, hu⟩
    exact ⟨u, body', hu, rfl, hbody⟩
  generalize hs : p ++ a = s at h
  fun_induction readQuotedBody s generalizing p body with
  | case1 => cases h
  | case2 s ih =>
    rcases of_longer h with ⟨u, body, rfl, rfl, hbody⟩
    have hp : p = '\x27' :: '\x27' :: u := List.append_cancel_right hs
    rw [hp, List.cons_append, List.cons_append, readQuotedBody, ih rfl hbody]
    rfl
  | case3 s hnot =>
    obtain ⟨rfl, rfl⟩ := Prod.mk.inj (Option.some.inj h)
    have hp : p = '\x27' :: q := List.append_cancel_right hs
    rw [hp, List.cons_append, readQuotedBody]
    -- A second quote would have been one before.
    intro r hr
    cases q with
    | nil => exact absurd (hb '\x27' (congrArg List.head? hr)) (by decide)
    | cons c q =>
      cases (List.cons.inj hr).1
      exact hnot _ rfl
  | case4 c s ih =>
    rcases of_longer h with ⟨u, body, rfl, rfl, hbody⟩
    have hp : p = '\\' :: c :: u := List.append_cancel_right hs
    rw [hp, List.cons_append, List.cons_append, readQuotedBody, ih rfl hbody]
    rfl
  | case5 => cases h
  | case6 c s _ hquote hescape hlast ih =>
    rcases of_longer h with ⟨u, body, rfl, rfl, hbody⟩
    have hp : p = c :: u := List.append_cancel_right hs
    have hbackslash : c ≠ '\\' := by
      intro hc
      cases hua : u ++ a with
      | nil => exact hlast hc hua
      | cons d r => exact hescape d r hc hua
    rw [hp, List.cons_append, readQuotedBody_cons hbackslash hquote, ih rfl hbody]
    rfl

namespace Reader

variable {α β : Type} {ends : List Char → Prop} {n : Nat} {item item' : Reader α}

/-- The second reader takes what the first one takes, if the text has less than `n` characters
    up to an end that is closed, whatever that end is. What is left, apart from blanks, must be
    as `ends` says. -/
structure Follows (ends : List Char → Prop) (n : Nat) (item item' : Reader α) : Prop where
  /-- What is left is left of the text. -/
  suffix : ∀ {s x r}, item s = some (x, r) → r <:+ s
  /-- What is taken is taken at another end too. -/
  takes : ∀ {p q a b x}, p.length < n → Closed a → Closed b → ends (skipBlanks (q ++ a)) →
    item (p ++ a) = some (x, q ++ a) → item' (p ++ b) = some (x, q ++ b)

theorem Follows.mono {ends' : List Char → Prop} (h : Follows ends n item item')
    (hends : ∀ s, ends' s → ends s) : Follows ends' n item item' :=
  ⟨h.suffix, fun hn ha hb hq hread => h.takes hn ha hb (hends _ hq) hread⟩

theorem follows_pure (ends : List Char → Prop) (n : Nat) (x : α) :
    Follows ends n (fun s => some (x, s)) fun s => some (x, s) := by
  constructor
  · intro s y r h
    cases h
    exact List.suffix_refl s
  · intro p q a b y _ _ _ _ h
    obtain ⟨rfl, happend⟩ := Prod.mk.inj (Option.some.inj h)
    rw [List.append_cancel_right happend]

theorem follows_exactly (ends : List Char → Prop) (n : Nat) (t : List Char) :
    Follows ends n (exactly t) (exactly t) := by
  constructor
  · intro s x r h
    exact ⟨t, (eq_append_of_exactly h).symm⟩
  · intro p q a b x _ _ _ _ h
    have hp := eq_append_of_exactly h
    rw [← List.append_assoc] at hp
    rw [List.append_cancel_right hp, List.append_assoc]
    exact exactly_append t (q ++ b)

theorem eq_dropWhile_of_while1 {cls : Char → Bool} {w : List Char}
    (h : while1 cls s = some (w, r)) : r = s.dropWhile cls := by
  unfold while1 at h
  split at h
  · cases h
  · cases h
    rfl

/-- After a run stands another class of characters. -/
theorem head?_of_while1 {cls : Char → Bool} {w : List Char} (h : while1 cls s = some (w, r)) :
    ∀ c ∈ r.head?, cls c = false := by
  intro c hc
  have hnot := List.head?_dropWhile_not cls s
  rw [← eq_dropWhile_of_while1 h, Option.mem_def.1 hc] at hnot
  exact hnot

theorem follows_while1 {cls : Char → Bool} (ends : List Char → Prop) (n : Nat)
    (hcls : cls ')' = false) : Follows ends n (while1 cls) (while1 cls) := by
  constructor
  · intro s w r h
    exact ⟨w, (eq_append_of_while1 h).symm⟩
  · intro p q a b w _ _ hb _ h
    have hp := eq_append_of_while1 h
    rw [← List.append_assoc] at hp
    rw [List.append_cancel_right hp, List.append_assoc]
    refine while1_append (of_while1 h).1 (of_while1 h).2 ?_
    intro c hc
    cases q with
    | nil => rw [hb c hc, hcls]
    | cons d q => exact head?_of_while1 h c hc

theorem Follows.spaced (h : Follows ends n item item') :
    Follows ends n (spaced item) (spaced item') := by
  constructor
  · intro s x r hs
    rcases Option.bind_eq_some_iff.1 hs with ⟨⟨y, r'⟩, hitem, hpair⟩
    cases hpair
    have hbefore : skipBlanks s <:+ s := List.dropWhile_suffix isBlank
    have hafter : skipBlanks r' <:+ r' := List.dropWhile_suffix isBlank
    exact hafter.trans ((h.suffix hitem).trans hbefore)
  · intro p q a b x hn ha hb hends hs
    rcases Option.bind_eq_some_iff.1 hs with ⟨⟨y, r⟩, hitem, hpair⟩
    obtain ⟨rfl, hr⟩ := Prod.mk.inj (Option.some.inj hpair)
    have hafter : q ++ a <:+ r := by
      rw [← hr]
      exact List.dropWhile_suffix isBlank
    rcases exists_eq_append_of_suffix hafter with ⟨u, rfl⟩
    rw [skipBlanks_append_of_closed ha] at hitem
    rw [← hr, skipBlanks_skipBlanks] at hends
    have hlength := Nat.lt_of_le_of_lt (length_skipBlanks_le p) hn
    rw [skipBlanks_append_of_closed ha] at hr
    rw [Reader.spaced, skipBlanks_append_of_closed hb, h.takes hlength ha hb hends hitem,
      ← List.append_cancel_right hr, ← skipBlanks_append_of_closed hb]
    rfl

/-- One item after the other, where it is known what may follow the first one. -/
theorem Follows.bind {ends₁ : List Char → Prop} {first first' : Reader α}
    {second second' : α → Reader β} (h : Follows ends₁ n first first')
    (h' : ∀ x, Follows ends n (second x) (second' x))
    (hends : ∀ {x s y r}, second x s = some (y, r) → ends (skipBlanks r) →
      ends₁ (skipBlanks s)) :
    Follows ends n (fun s => (first s).bind fun p => second p.1 p.2)
      fun s => (first' s).bind fun p => second' p.1 p.2 := by
  constructor
  · intro s y r hs
    rcases Option.bind_eq_some_iff.1 hs with ⟨⟨x, t⟩, hfirst, hsecond⟩
    exact ((h' x).suffix hsecond).trans (h.suffix hfirst)
  · intro p q a b y hn ha hb hq hs
    rcases Option.bind_eq_some_iff.1 hs with ⟨⟨x, t⟩, hfirst, hsecond⟩
    rcases exists_eq_append_of_suffix ((h' x).suffix hsecond) with ⟨u, rfl⟩
    have hle := (h.suffix hfirst).length_le
    rw [List.length_append, List.length_append] at hle
    have hfirst' := h.takes hn ha hb (hends hsecond hq) hfirst
    exact Option.bind_eq_some_iff.2
      ⟨(x, u ++ b), hfirst', (h' x).takes (by omega) ha hb hq hsecond⟩

/-- What becomes of the last item makes no difference. -/
theorem Follows.bind_pure (h : Follows ends n item item') (f : α → β) :
    Follows ends n (fun s => (item s).bind fun p => some (f p.1, p.2))
      fun s => (item' s).bind fun p => some (f p.1, p.2) := by
  refine h.bind (fun x => follows_pure ends n (f x)) ?_
  intro x s y r hs hr
  cases hs
  exact hr

theorem Follows.map (h : Follows ends n item item') (f : α → β) :
    Follows ends n (fun s => (item s).map fun p => (f p.1, p.2))
      fun s => (item' s).map fun p => (f p.1, p.2) := by
  constructor
  · intro s y r hs
    rcases Option.map_eq_some_iff.1 hs with ⟨⟨x, t⟩, hitem, hpair⟩
    cases hpair
    exact h.suffix hitem
  · intro p q a b y hn ha hb hq hs
    rcases Option.map_eq_some_iff.1 hs with ⟨⟨x, t⟩, hitem, hpair⟩
    obtain ⟨rfl, rfl⟩ := Prod.mk.inj hpair
    exact Option.map_eq_some_iff.2 ⟨_, h.takes hn ha hb hq hitem, rfl⟩

theorem follows_none (ends : List Char → Prop) (n : Nat) :
    Follows ends n (fun _ => none : Reader α) fun _ => none :=
  ⟨nofun, nofun⟩

/-- What may be left out is left out at another end too, if no bracket closes where it could
    stand. -/
theorem Follows.optional (h : Follows Closed n item item')
    (hnone : ∀ s, Closed (skipBlanks s) → item' s = none) :
    Follows Closed n (optional item) (optional item') := by
  constructor
  · intro s x r hs
    unfold Reader.optional at hs
    split at hs
    · next y t hitem =>
      cases hs
      exact h.suffix hitem
    · cases hs
      exact List.suffix_refl s
  · intro p q a b x hn ha hb hq hs
    unfold Reader.optional at hs ⊢
    split at hs
    · next y t hitem =>
      cases hs
      rw [h.takes hn ha hb hq hitem]
    · obtain ⟨rfl, happend⟩ := Prod.mk.inj (Option.some.inj hs)
      rw [List.append_cancel_right happend, hnone _ (ha.skipBlanks_append hb hq)]

theorem mark_eq_some_iff {c : Char} :
    mark c s = some ((), r) ↔ ∃ t, skipBlanks s = c :: t ∧ r = skipBlanks t := by
  constructor
  · intro h
    rcases Option.bind_eq_some_iff.1 h with ⟨⟨⟨⟩, t⟩, hchar, hpair⟩
    cases hpair
    exact ⟨t, eq_append_of_exactly hchar, rfl⟩
  · rintro ⟨t, ht, rfl⟩
    rw [mark, spaced, ht, char_cons]
    rfl

theorem follows_mark (ends : List Char → Prop) (n : Nat) (c : Char) :
    Follows ends n (mark c) (mark c) :=
  (follows_exactly ends n [c]).spaced

theorem length_lt_of_comma (h : mark ',' s = some ((), r)) : r.length < s.length := by
  rcases mark_eq_some_iff.1 h with ⟨t, ht, rfl⟩
  have hle := length_skipBlanks_le s
  have hle' := length_skipBlanks_le t
  rw [ht, List.length_cons] at hle
  omega

/-- A comma parts what stands before it. -/
theorem parted_of_comma (h : mark ',' s = some ((), r)) : Parted (skipBlanks s) := by
  rcases mark_eq_some_iff.1 h with ⟨t, ht, -⟩
  rw [ht]
  intro c hc
  cases hc
  exact Or.inl rfl

/-- No comma stands where a bracket closes. -/
theorem comma_eq_none (h : Closed (skipBlanks s)) : mark ',' s = none := by
  cases hmark : mark ',' s with
  | none => rfl
  | some found =>
    rcases mark_eq_some_iff.1 hmark with ⟨t, ht, -⟩
    rw [ht] at h
    exact absurd (h ',' rfl) (by decide)

theorem Follows.pairOf {ends₁ : List Char → Prop} {other other' : Reader β} {c : Char}
    (h : Follows ends₁ n item item') (h' : Follows ends n other other')
    (hends : ∀ {s r}, mark c s = some ((), r) → ends₁ (skipBlanks s)) :
    Follows ends n (pairOf item (mark c) other) (pairOf item' (mark c) other') := by
  refine h.bind (fun x => (follows_mark (fun _ => True) n c).bind
    (fun _ => h'.bind_pure fun y => (x, y)) fun _ _ => trivial) ?_
  intro x s y r hpair _
  rcases Option.bind_eq_some_iff.1 hpair with ⟨⟨⟨⟩, t⟩, hmark, -⟩
  exact hends hmark

/-! ## Lists -/

theorem suffix_of_furtherItems (h : ∀ {s x r}, item s = some (x, r) → r <:+ s) (k : Nat)
    (s : List Char) : (furtherItems (mark ',') item k s).2 <:+ s := by
  induction k generalizing s with
  | zero => exact List.suffix_refl s
  | succ k ih =>
    unfold furtherItems
    split
    · exact List.suffix_refl s
    · next r hmark =>
      split
      · exact List.suffix_refl s
      · next x t hitem =>
        have hcomma := (follows_mark (fun _ => True) 0 ',').suffix hmark
        exact (ih t).trans ((h hitem).trans hcomma)

/-- Before further items stands a comma, or nothing but what is left. -/
theorem parted_of_furtherItems {k : Nat} {xs : List α}
    (h : furtherItems (mark ',') item k s = (xs, r)) (hr : Closed (skipBlanks r)) :
    Parted (skipBlanks s) := by
  cases k with
  | zero =>
    cases h
    exact hr.parted
  | succ k =>
    unfold furtherItems at h
    split at h
    · cases h
      exact hr.parted
    · next r' hmark => exact parted_of_comma hmark

/-- Further items are the same at another end, if a bracket closes what is left. -/
theorem Follows.furtherItems (h : Follows Parted n item item') {k m : Nat} {xs : List α}
    (hn : p.length < n) (ha : Closed a) (hb : Closed b) (hq : Closed (skipBlanks (q ++ a)))
    (hread : furtherItems (mark ',') item k (p ++ a) = (xs, q ++ a))
    (hm : (p ++ b).length ≤ m) : furtherItems (mark ',') item' m (p ++ b) = (xs, q ++ b) := by
  -- Where the first list ends no comma follows, so the second one ends there too.
  have hstop {p : List Char} (m : Nat) {xs : List α} (hend : ([], p ++ a) = (xs, q ++ a)) :
      Reader.furtherItems (mark ',') item' m (p ++ b) = (xs, q ++ b) := by
    obtain ⟨rfl, happend⟩ := Prod.mk.inj hend
    rw [List.append_cancel_right happend]
    cases m with
    | zero => rfl
    | succ m =>
      unfold Reader.furtherItems
      rw [comma_eq_none (ha.skipBlanks_append hb hq)]
  induction k generalizing p m xs with
  | zero => exact hstop m hread
  | succ k ih =>
    unfold Reader.furtherItems at hread
    split at hread
    · exact hstop m hread
    · next r hmark =>
      split at hread
      · -- A comma that no item follows would be left.
        obtain ⟨-, happend⟩ := Prod.mk.inj hread
        rw [happend, comma_eq_none hq] at hmark
        cases hmark
      · next x t hitem =>
        rcases hrest : Reader.furtherItems (mark ',') item k t with ⟨ys, t'⟩
        rw [hrest] at hread
        obtain ⟨rfl, rfl⟩ := Prod.mk.inj hread
        have hsuffix := suffix_of_furtherItems h.suffix k t
        rw [hrest] at hsuffix
        rcases exists_eq_append_of_suffix hsuffix with ⟨u, rfl⟩
        rcases exists_eq_append_of_suffix (h.suffix hitem) with ⟨v, rfl⟩
        have hmark' := (follows_mark (fun _ => True) n ',').takes hn ha hb trivial hmark
        have hle := (h.suffix hitem).length_le
        have hlt := length_lt_of_comma hmark
        have hlt' := length_lt_of_comma hmark'
        simp only [List.length_append] at hle hlt hlt' hm
        have hitem' := h.takes (by omega) ha hb (parted_of_furtherItems hrest hq) hitem
        cases m with
        | zero => omega
        | succ m =>
          have hlength : (u ++ b).length ≤ m := by
            rw [List.length_append]
            omega
          unfold Reader.furtherItems
          simp only [hmark', hitem', ih (by omega) hrest hlength]

/-- A list is the same at another end, if a bracket closes what is left. -/
theorem Follows.separated1 (h : Follows Parted n item item') :
    Follows Closed n (separated1 (mark ',') item) (separated1 (mark ',') item') := by
  let rest (item : Reader α) (x : α) : Reader (List α) := fun s =>
    some (x :: (Reader.furtherItems (mark ',') item s.length s).1,
      (Reader.furtherItems (mark ',') item s.length s).2)
  have hrest (x : α) : Follows Closed n (rest item x) (rest item' x) := by
    constructor
    · intro s xs r hs
      cases hs
      exact suffix_of_furtherItems h.suffix s.length s
    · intro p q a b xs hn ha hb hq hs
      obtain ⟨rfl, hr⟩ := Prod.mk.inj (Option.some.inj hs)
      have hfurther := h.furtherItems hn ha hb hq (Prod.ext rfl hr) (Nat.le_refl _)
      dsimp only [rest]
      rw [hfurther]
  refine h.bind hrest ?_
  intro x s xs r hs hr
  cases hs
  exact parted_of_furtherItems rfl hr

/-! ## Brackets -/

theorem enclosed_eq_some_iff {x : α} {opening closing : Char} :
    enclosed opening closing item s = some (x, r) ↔
      ∃ t t', s = opening :: t ∧ item (skipBlanks t) = some (x, t') ∧
        skipBlanks t' = closing :: r := by
  constructor
  · intro h
    rcases Option.bind_eq_some_iff.1 h with ⟨⟨⟨⟩, t⟩, hopening, h⟩
    rcases Option.bind_eq_some_iff.1 h with ⟨⟨y, t₂⟩, hspaced, h⟩
    rcases Option.bind_eq_some_iff.1 h with ⟨⟨⟨⟩, t₃⟩, hclosing, hpair⟩
    rcases Option.bind_eq_some_iff.1 hspaced with ⟨⟨z, t'⟩, hitem, hpair'⟩
    cases hpair
    cases hpair'
    exact ⟨t, t', eq_append_of_exactly hopening, hitem, eq_append_of_exactly hclosing⟩
  · rintro ⟨t, t', rfl, hitem, hclosing⟩
    rw [enclosed, char_cons]
    simp only [Option.bind_eq_bind, Option.bind_some, spaced, hitem, hclosing, char_cons,
      Option.pure_def]

/-- What stands in brackets is the same whatever comes after them. -/
theorem Follows.enclosed (h : Follows Closed n item item') (ends : List Char → Prop) :
    Follows ends (n + 1) (enclosed '(' ')' item) (enclosed '(' ')' item') := by
  constructor
  · intro s x r hs
    rcases enclosed_eq_some_iff.1 hs with ⟨t, t', rfl, hitem, hclosing⟩
    have hbefore : skipBlanks t <:+ t := List.dropWhile_suffix isBlank
    have hafter : skipBlanks t' <:+ t' := List.dropWhile_suffix isBlank
    rw [hclosing] at hafter
    exact (List.suffix_cons _ r).trans (hafter.trans ((h.suffix hitem).trans
      (hbefore.trans (List.suffix_cons _ t))))
  · intro p q a b x hn ha hb _ hs
    rcases enclosed_eq_some_iff.1 hs with ⟨t, t', hp, hitem, hclosing⟩
    have hbefore : skipBlanks t <:+ t := List.dropWhile_suffix isBlank
    have hafter : q ++ a <:+ t' :=
      (hclosing ▸ List.suffix_cons _ _ : q ++ a <:+ skipBlanks t').trans
        (List.dropWhile_suffix isBlank)
    rcases exists_eq_append_of_suffix (hafter.trans ((h.suffix hitem).trans hbefore))
      with ⟨u, rfl⟩
    rcases exists_eq_append_of_suffix hafter with ⟨v, rfl⟩
    have hpu : p = '(' :: u := List.append_cancel_right hp
    have hle := length_skipBlanks_le u
    have hclosed : Closed (skipBlanks (v ++ a)) := hclosing ▸ closed_cons _
    rw [hpu, List.length_cons] at hn
    rw [skipBlanks_append_of_closed ha] at hitem hclosing
    have hvq : skipBlanks v = ')' :: q := List.append_cancel_right hclosing
    refine enclosed_eq_some_iff.2 ⟨u ++ b, v ++ b, by rw [hpu, List.cons_append], ?_, ?_⟩
    · rw [skipBlanks_append_of_closed hb]
      exact h.takes (by omega) ha hb hclosed hitem
    · rw [skipBlanks_append_of_closed hb, hvq, List.cons_append]

end Reader

end Text

end ColumnStore
