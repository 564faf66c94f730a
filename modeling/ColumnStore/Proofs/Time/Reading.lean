import ColumnStore.Proofs.Number.Whole
import ColumnStore.Time.Reader

/-!
# Reading Dates and Instants Back

Every date is read from its text. An instant is read from its text as what the text
shows of it: with as many decimal places as were written, the others cut off. A leap
second is not meant by that, since its nanoseconds do not fit nine decimal places.

## Main definitions

* `Instant.cut`: An instant without the decimal places after some.
* `Instant.secondsText`: The seconds of an instant as they are written.

## Theorems

* `Date.read?_text`: Every date is read back.
* `Time.seconds?_of_places`: Seconds with decimal places are read.
* `Instant.read?_fixed`: An instant is read back with the places that were written.
-/

namespace ColumnStore

namespace Time

open Text (Reader)

/-- A run of digits is read up to the first character that is none. -/
theorem number_append {lo hi : Nat} {ds r : List Char} (hds : ∀ c ∈ ds, c.isDigit = true)
    (hlo : lo ≤ ds.length) (hhi : ds.length ≤ hi) (hr : ∀ c ∈ r.head?, c.isDigit = false) :
    number lo hi (ds ++ r) = some (Number.ofDigits ds, r) := by
  -- The characters that are looked at are the digits and perhaps some of the others.
  have hrun : ((ds ++ r).take hi).takeWhile Char.isDigit = ds := by
    rw [List.take_append, List.take_of_length_le hhi, List.takeWhile_append_of_pos hds]
    cases r with
    | nil => simp
    | cons c r =>
      have hc : ¬ c.isDigit = true := by simp [hr c rfl]
      cases hi - ds.length with
      | zero => simp
      | succ n => rw [List.take_succ_cons, List.takeWhile_cons_of_neg hc, List.append_nil]
  simp only [number, hrun, if_pos hlo, List.drop_left]

theorem isDigit_of_mem_hyphen (r : List Char) : ∀ c ∈ ('-' :: r).head?, c.isDigit = false := by
  intro c hc
  rw [← Option.some.inj hc]
  rfl

/-- There is no white space before digits. -/
theorem trimLeft_append {ds : List Char} (hne : ds ≠ []) (hds : ∀ c ∈ ds, c.isDigit = true)
    (r : List Char) : Text.trimLeft (ds ++ r) = ds ++ r := by
  cases ds with
  | nil => exact absurd rfl hne
  | cons d ds =>
    have hd := Text.isSpace_of_isDigit (hds d List.mem_cons_self)
    rw [List.cons_append, Text.trimLeft, List.dropWhile_cons_of_neg (by simp [hd])]

/-- A month or a day is read up to the first character that is no digit. -/
theorem field_append {n : Nat} {r : List Char} (hn : n < 100)
    (hr : ∀ c ∈ r.head?, c.isDigit = false) : field (Number.padded 2 n ++ r) = some (n, r) := by
  have hds : ∀ c ∈ Number.padded 2 n, c.isDigit = true := fun _ h => Number.isDigit_of_mem_padded h
  have hlen : (Number.padded 2 n).length = 2 := Number.length_padded (by decide) hn
  rw [field, trimLeft_append (Number.padded_ne_nil 2 n) hds,
    number_append hds (by omega) (by omega) hr, Number.ofDigits_padded]

/-- A year is read up to the hyphen after it. -/
theorem year_append (y : Int) (r : List Char) :
    year (Date.yearText y ++ '-' :: r) = some (y, '-' :: r) := by
  have hds : ∀ c ∈ Number.padded 4 y.natAbs, c.isDigit = true :=
    fun _ h => Number.isDigit_of_mem_padded h
  have hne := Number.padded_ne_nil 4 y.natAbs
  have hpos : 1 ≤ (Number.padded 4 y.natAbs).length := List.length_pos_iff.2 hne
  have hhyphen := isDigit_of_mem_hyphen r
  unfold Date.yearText year
  -- A year of more than four digits, or below zero, has a sign before it.
  by_cases h : (0 ≤ y && y ≤ 9999) = true
  · rw [if_pos h, trimLeft_append hne hds]
    simp only [Bool.and_eq_true, decide_eq_true_eq] at h
    have hlen : (Number.padded 4 y.natAbs).length = 4 :=
      Number.length_padded (by decide) (by omega)
    have hread : number 1 4 (Number.padded 4 y.natAbs ++ '-' :: r) = some (y.natAbs, '-' :: r) := by
      rw [number_append hds hpos (by omega) hhyphen, Number.ofDigits_padded]
    -- The text starts with a digit, so neither sign is taken off.
    split
    · next he => exact absurd he (Number.append_ne_cons hne hds (by decide))
    · next he => exact absurd he (Number.append_ne_cons hne hds (by decide))
    · simp only [hread, Option.map_some, Option.some.injEq, Prod.mk.injEq, and_true]
      omega
  · rw [if_neg h]
    have hread : number 1 (Number.padded 4 y.natAbs ++ '-' :: r).length
        (Number.padded 4 y.natAbs ++ '-' :: r) = some (y.natAbs, '-' :: r) := by
      rw [number_append hds hpos (by simp) hhyphen, Number.ofDigits_padded]
    by_cases hneg : y < 0
    · have hskip : Text.trimLeft ('-' :: Number.padded 4 y.natAbs ++ '-' :: r) =
          '-' :: (Number.padded 4 y.natAbs ++ '-' :: r) := rfl
      rw [if_pos hneg, hskip]
      simp only [hread, Option.map_some, Option.some.injEq, Prod.mk.injEq, and_true]
      omega
    · have hskip : Text.trimLeft ('+' :: Number.padded 4 y.natAbs ++ '-' :: r) =
          '+' :: (Number.padded 4 y.natAbs ++ '-' :: r) := rfl
      rw [if_neg hneg, hskip]
      simp only [hread, Option.map_some, Option.some.injEq, Prod.mk.injEq, and_true]
      omega

/-- The text of a date is read as it. -/
theorem date_text (d : Date) : Reader.all date d.text = some d := by
  rcases d with ⟨y, m, day, hvalid⟩
  have hm : m < 100 := Nat.lt_of_le_of_lt hvalid.2.1.2 (by decide)
  have hday : day < 100 := by
    have hle : day ≤ Date.daysIn y m := hvalid.2.2.2
    have hin : Date.daysIn y m ≤ 31 := by
      simp only [Date.daysIn]
      repeat' split
      all_goals decide
    omega
  have hhyphen := isDigit_of_mem_hyphen (Number.padded 2 day)
  have hlast : field (Number.padded 2 day) = some (day, []) := by
    have h := field_append (n := day) (r := []) hday (by simp)
    rwa [List.append_nil] at h
  simp only [Reader.all, date, Date.text, List.append_assoc, List.cons_append, year_append,
    Reader.char_cons, field_append hm hhyphen, hlast, Date.make?, dif_pos hvalid, Option.bind_eq_bind,
    Option.bind_some, Option.pure_def]

end Time

namespace Date

/-- No date is written as zeros only. -/
theorem text_ne_zeros (d : Date) : d.text ≠ "0000-00-00".toList := by
  intro h
  have hzeros : Text.Reader.all Time.date "0000-00-00".toList = none := by decide
  rw [← h, Time.date_text d] at hzeros
  exact absurd hzeros (by simp)

/-- Every date is read back. -/
theorem read?_text (d : Date) : Date.read? d.text = some d := by
  rw [Date.read?, if_neg d.text_ne_zeros, Time.date_text]
  rfl

end Date

namespace Instant

/-- The seconds of an instant as they are written. -/
def secondsText (n : Int) : List Char :=
  (if n < 0 then ['-'] else []) ++ Number.padded 10 n.natAbs

/-- An instant without the decimal places after the first `places`. -/
def cut (t : Instant) (places : Nat) : Instant :=
  ⟨t.seconds, t.nanos / 10 ^ (9 - places) * 10 ^ (9 - places), t.seconds_mem,
    Nat.lt_of_le_of_lt (Nat.div_mul_le_self _ _) t.nanos_lt⟩

/-- The written places of an instant. -/
def placesText (t : Instant) (places : Nat) : List Char :=
  (Number.padded 9 t.nanos).take (min places 9)

/-- An instant is written as its seconds, with a point and places after them if
    there are to be places. -/
theorem fixed_eq (t : Instant) (places : Nat) :
    t.fixed places = if places = 0 then secondsText t.seconds
      else secondsText t.seconds ++ '.' :: t.placesText places := rfl

/-- Seconds are digits, perhaps after a minus sign. -/
theorem secondsText_eq_or (n : Int) : ∃ ds, ds ≠ [] ∧ (∀ c ∈ ds, c.isDigit = true) ∧
    10 ≤ ds.length ∧ (secondsText n = ds ∨ secondsText n = '-' :: ds) := by
  refine ⟨Number.padded 10 n.natAbs, Number.padded_ne_nil _ _,
    fun _ h => Number.isDigit_of_mem_padded h, Number.le_length_padded _ _, ?_⟩
  by_cases h : n < 0
  · exact Or.inr (by simp [secondsText, h])
  · exact Or.inl (by simp [secondsText, h])

theorem of_mem_secondsText {n : Int} {c : Char} (h : c ∈ secondsText n) :
    c = '-' ∨ c.isDigit = true := by
  rcases secondsText_eq_or n with ⟨ds, -, hds, -, htext | htext⟩
  · exact Or.inr (hds c (htext ▸ h))
  · rw [htext, List.mem_cons] at h
    exact h.imp_right (hds c)

theorem integer?_secondsText (n : Int) : Number.integer? (secondsText n) = some n := by
  have hne := Number.padded_ne_nil 10 n.natAbs
  have hds : ∀ c ∈ Number.padded 10 n.natAbs, c.isDigit = true :=
    fun _ h => Number.isDigit_of_mem_padded h
  unfold secondsText
  by_cases h : n < 0
  · rw [if_pos h, List.singleton_append, Number.integer?_neg hne hds, Number.ofDigits_padded]
    congr 1
    omega
  · rw [if_neg h, List.nil_append, Number.integer?_of_isDigit hne hds, Number.ofDigits_padded]
    congr 1
    omega

end Instant

namespace Time

/-- Seconds with decimal places, nine at most, are read as the instant that has
    them. -/
theorem seconds?_of_places {n : Int} {places s : List Char}
    (hn : Instant.firstSecond ≤ n ∧ n ≤ Instant.lastSecond)
    (hplaces : ∀ c ∈ places, c.isDigit = true) (hlen : places.length ≤ 9)
    (hs : s = Instant.secondsText n ++ '.' :: places ∨
      places = [] ∧ s = Instant.secondsText n) :
    seconds? s = some (Instant.make? n (Number.ofDigits places * 10 ^ (9 - places.length))) := by
  rcases Instant.secondsText_eq_or n with ⟨ds, hne, hds, -, htext⟩
  have hpoint : ∀ c ∈ Instant.secondsText n, (c ≠ '.' : Bool) = true := by
    intro c hc
    rw [decide_eq_true_eq]
    rintro rfl
    rcases Instant.of_mem_secondsText hc with h | h
    · exact absurd h (by decide)
    · exact absurd h (by decide)
  -- The text is cut at its point, if it has one.
  have hwhole : s.takeWhile (fun c => (c ≠ '.' : Bool)) = Instant.secondsText n := by
    rcases hs with hs | ⟨-, hs⟩
    · rw [hs, List.takeWhile_append_of_pos hpoint, List.takeWhile_cons_of_neg (by simp),
        List.append_nil]
    · rw [hs, ← List.append_nil (Instant.secondsText n), List.takeWhile_append_of_pos hpoint,
        List.takeWhile_nil]
  have hafter : (s.dropWhile (fun c => (c ≠ '.' : Bool))).drop 1 = places := by
    rcases hs with hs | ⟨hnil, hs⟩
    · rw [hs, List.dropWhile_append_of_pos hpoint, List.dropWhile_cons_of_neg (by simp)]
      rfl
    · rw [hs, hnil, ← List.append_nil (Instant.secondsText n), List.dropWhile_append_of_pos hpoint]
      rfl
  have hsigns : ((Instant.secondsText n).dropWhile (· = '-')).all Char.isDigit = true := by
    have hbare : ds.dropWhile (· = '-') = ds := by
      refine Text.dropWhile_of_forall fun c hc => ?_
      rw [decide_eq_false_iff_not]
      rintro rfl
      exact absurd (hds '-' hc) (by decide)
    rcases htext with htext | htext
    · rw [htext, hbare]
      exact List.all_eq_true.2 hds
    · rw [htext, List.dropWhile_cons_of_pos (by simp), hbare]
      exact List.all_eq_true.2 hds
  have hfirst : Instant.secondsText n ≠ [] := by
    rcases htext with htext | htext
    · rw [htext]
      exact hne
    · simp [htext]
  -- The calendar ends long before the seconds outgrow their word.
  have hbounds : Number.integerBetween? (-0x8000000000000000) 0x7FFFFFFFFFFFFFFF
      (Instant.secondsText n) = some n := by
    simp only [Instant.firstSecond, Instant.lastSecond] at hn
    have hlow : (-0x8000000000000000 : Int) ≤ n := by omega
    have hhigh : n ≤ 0x7FFFFFFFFFFFFFFF := by omega
    simp [Number.integerBetween?, Instant.integer?_secondsText, hlow, hhigh]
  simp only [seconds?, hwhole, hafter]
  rw [if_pos ⟨hfirst, hsigns, List.all_eq_true.2 hplaces⟩, hbounds, List.take_of_length_le hlen]
  rfl

end Time

namespace Instant

/-- The places that are written denote the nanoseconds that are not cut off. -/
theorem ofDigits_placesText {t : Instant} (ht : t.nanos < 1000000000) (places : Nat) :
    (t.placesText places).length = min places 9 ∧
      Number.ofDigits (t.placesText places) = t.nanos / 10 ^ (9 - min places 9) := by
  have hlen : (Number.padded 9 t.nanos).length = 9 := Number.length_padded (by decide) ht
  have htake : (t.placesText places).length = min places 9 := by
    rw [placesText, List.length_take, hlen]
    omega
  refine ⟨htake, ?_⟩
  -- The nanoseconds are the places that are written, and below them the others.
  have hsplit := Number.ofDigits_append ((Number.padded 9 t.nanos).take (min places 9))
    ((Number.padded 9 t.nanos).drop (min places 9))
  have hrest : Number.ofDigits ((Number.padded 9 t.nanos).drop (min places 9)) <
      10 ^ ((Number.padded 9 t.nanos).drop (min places 9)).length :=
    Number.ofDigits_lt fun _ h => Number.isDigit_of_mem_padded (List.mem_of_mem_drop h)
  rw [List.length_drop, hlen] at hsplit hrest
  rw [List.take_append_drop, Number.ofDigits_padded] at hsplit
  rw [Nat.add_comm] at hsplit
  exact (calc t.nanos / 10 ^ (9 - min places 9)
      = (Number.ofDigits ((Number.padded 9 t.nanos).drop (min places 9)) +
          Number.ofDigits (t.placesText places) * 10 ^ (9 - min places 9)) /
            10 ^ (9 - min places 9) := congrArg (· / 10 ^ (9 - min places 9)) hsplit
    _ = Number.ofDigits ((Number.padded 9 t.nanos).drop (min places 9)) /
          10 ^ (9 - min places 9) + Number.ofDigits (t.placesText places) :=
        Nat.add_mul_div_right _ _ (Nat.pow_pos (by decide))
    _ = Number.ofDigits (t.placesText places) := by rw [Nat.div_eq_of_lt hrest, Nat.zero_add]).symm

/-- What is written of an instant does not start like the date of zeros. -/
theorem not_isPrefixOf_fixed (t : Instant) (places : Nat) :
    ¬ "0000-00-00".toList.isPrefixOf (t.fixed places) = true := by
  intro h
  rw [List.isPrefixOf_iff_prefix] at h
  rcases h with ⟨r, hr⟩
  rcases secondsText_eq_or t.seconds with ⟨ds, hne, hds, hlen, htext⟩
  have hstart : ∃ tail, t.fixed places = secondsText t.seconds ++ tail := by
    rw [fixed_eq]
    by_cases hp : places = 0
    · exact ⟨[], by rw [if_pos hp, List.append_nil]⟩
    · exact ⟨'.' :: t.placesText places, by rw [if_neg hp]⟩
  rcases hstart with ⟨tail, htail⟩
  rw [htail] at hr
  rcases htext with htext | htext
  · -- The fifth character of the date is a hyphen, that of the seconds a digit.
    have hfive : (ds ++ tail).take 5 = ds.take 5 := by
      rw [List.take_append, (by omega : 5 - ds.length = 0), List.take_zero, List.append_nil]
    have hmem : '-' ∈ ds.take 5 := by
      rw [← hfive, ← htext, ← hr]
      exact List.mem_of_elem_eq_true rfl
    exact absurd (hds '-' (List.mem_of_mem_take hmem)) (by decide)
  · -- The first one is a zero, and not the sign.
    rw [htext] at hr
    have hhead : some '0' = some '-' := congrArg List.head? hr
    exact absurd hhead (by decide)

/-- An instant that is no leap second is read back with the places that were
    written. -/
theorem read?_fixed {t : Instant} (ht : t.nanos < 1000000000) (places : Nat) :
    Instant.read? (t.fixed places) = some (t.cut (min places 9)) := by
  rcases ofDigits_placesText ht places with ⟨hlen, hdigits⟩
  have hplaces : ∀ c ∈ t.placesText places, c.isDigit = true :=
    fun _ h => Number.isDigit_of_mem_padded (List.mem_of_mem_take h)
  have hread : Time.seconds? (t.fixed places) =
      some (Instant.make? t.seconds (t.cut (min places 9)).nanos) := by
    have hform : t.fixed places = secondsText t.seconds ++ '.' :: t.placesText places ∨
        t.placesText places = [] ∧ t.fixed places = secondsText t.seconds := by
      by_cases hp : places = 0
      · exact Or.inr ⟨by simp [placesText, hp], by rw [fixed_eq, if_pos hp]⟩
      · exact Or.inl (by rw [fixed_eq, if_neg hp])
    rw [Time.seconds?_of_places t.seconds_mem hplaces (by omega) hform, hdigits, hlen]
    rfl
  have hmake : Instant.make? t.seconds (t.cut (min places 9)).nanos =
      some (t.cut (min places 9)) := by
    rw [make?, dif_pos ⟨t.seconds_mem, (t.cut (min places 9)).nanos_lt⟩]
    rfl
  rw [Instant.read?, if_neg (t.not_isPrefixOf_fixed places), hread]
  exact hmake

/-- There is no white space in what is written of an instant. -/
theorem isSpace_of_mem_fixed {t : Instant} {places : Nat} {c : Char} (h : c ∈ t.fixed places) :
    Text.isSpace c = false := by
  have hwhole : ∀ c ∈ secondsText t.seconds, Text.isSpace c = false := by
    intro c hc
    rcases of_mem_secondsText hc with rfl | hc
    · decide
    · exact Text.isSpace_of_isDigit hc
  rw [fixed_eq] at h
  by_cases hp : places = 0
  · rw [if_pos hp] at h
    exact hwhole c h
  · rw [if_neg hp, List.mem_append, List.mem_cons] at h
    rcases h with h | rfl | h
    · exact hwhole c h
    · decide
    · exact Text.isSpace_of_isDigit (Number.isDigit_of_mem_padded (List.mem_of_mem_take h))

end Instant

end ColumnStore
