import ColumnStore.Proofs.Query.Slicing
import ColumnStore.Session.Query
import Mathlib.Data.List.Basic
import Mathlib.Order.MinMax

/-!
# Pages of a Query

The pages of a query lie side by side. Whatever window the query has, the rows of its pages,
one page after the other, are its rows: none is missing, none is there twice, and their order
is kept. All pages but the last are full, and no page is empty unless there are no rows.

The rows are counted first, and a page is a slice between two products of its number and its
size. No such product is too large for a count, because a page that is accepted starts at a
row that was counted.

What may be too large is the position of a page among all rows, the ones before the window
included. A slice beyond the greatest count starts at the greatest count instead, so a query
that leaves out that many rows has one page over and over again. No table has so many rows,
but a query may ask for them. The pages have the right numbers of rows even then.

## Main definitions

* `Query.page`: The query for a page, and the number of pages.
* `Query.pageAfter`: The query for the rows after those of some pages.

## Theorems

* `pageCount_spec`: The pages have room for all rows, and without the last one they have not.
* `pageStart_eq_ok_iff`: Which pages there are, and where they start.
* `Session.page_eq`: What a session asks for a page.
* `Window.length_rows_narrow`, `Query.length_pageAfter`: How many rows a page has.
* `Query.rows_pages`, `Query.pages_tile`: The rows of the pages are the rows of the query.
* `Query.last_page_repeated`: Pages beyond the greatest count.
-/

namespace ColumnStore

theorem toNat_ne_zero {n : UInt64} : n.toNat ≠ 0 ↔ n ≠ 0 :=
  not_congr ⟨fun h => UInt64.toNat_inj.1 h, fun h => congrArg UInt64.toNat h⟩

/-- The number of pages is a quotient, or the next number. That is a count, since rows are
    left over only if a page has room for two of them. -/
theorem toNat_pageCount (total : UInt64) {size : UInt64} (h : size ≠ 0) :
    (pageCount total size).toNat =
      if total.toNat % size.toNat = 0 then max 1 (total.toNat / size.toNat)
      else total.toNat / size.toNat + 1 := by
  have hmod : total % size = 0 ↔ total.toNat % size.toNat = 0 := by
    rw [← UInt64.toNat_mod]
    exact (not_iff_not.1 toNat_ne_zero).symm
  unfold pageCount
  dsimp only
  by_cases hrest : total.toNat % size.toNat = 0
  · rw [if_pos hrest, if_pos (hmod.2 hrest)]
    by_cases hwhole : total / size = 0
    · rw [if_pos hwhole, ← UInt64.toNat_div, hwhole]
      rfl
    · have hsome := toNat_ne_zero.2 hwhole
      rw [if_neg hwhole, UInt64.toNat_div]
      rw [UInt64.toNat_div] at hsome
      exact (Nat.max_eq_right (Nat.pos_of_ne_zero hsome)).symm
  · rw [if_neg hrest, if_neg (fun hzero => hrest (hmod.1 hzero))]
    have hone : size.toNat ≠ 1 := fun hone => hrest (by rw [hone, Nat.mod_one])
    have hsize := toNat_ne_zero.2 h
    have hhalf : total.toNat / size.toNat ≤ total.toNat / 2 :=
      Nat.div_le_div_left (by omega) (by decide)
    have hlt := total.toNat_lt
    have hnext : (total / size + 1).toNat = total.toNat / size.toNat + 1 := by
      rw [UInt64.toNat_add, UInt64.toNat_div, UInt64.toNat_one]
      exact Nat.mod_eq_of_lt (by omega)
    have hsome : total / size + 1 ≠ 0 := toNat_ne_zero.1 (by rw [hnext]; exact Nat.succ_ne_zero _)
    rw [if_neg hsome, hnext]

/-- The pages have room for all rows, and without the last one they have not. There is a
    first page even if there are no rows. -/
theorem pageCount_spec (total : UInt64) {size : UInt64} (h : size ≠ 0) :
    total.toNat ≤ (pageCount total size).toNat * size.toNat ∧
      (total.toNat = 0 → (pageCount total size).toNat = 1) ∧
      (0 < total.toNat → 0 < (pageCount total size).toNat ∧
        ((pageCount total size).toNat - 1) * size.toNat < total.toNat) := by
  have hsize := toNat_ne_zero.2 h
  have hparts := Nat.div_add_mod total.toNat size.toNat
  have hrest := Nat.mod_lt total.toNat (Nat.pos_of_ne_zero hsize)
  rw [Nat.mul_comm] at hparts
  rw [toNat_pageCount total h]
  generalize total.toNat / size.toNat = whole at hparts ⊢
  generalize total.toNat % size.toNat = rest at hparts hrest ⊢
  -- Full pages alone, none or some, or another page for the rows that are left.
  by_cases hzero : rest = 0
  · rw [if_pos hzero]
    rcases whole with _ | whole
    · simp only [Nat.zero_mul] at hparts
      simp [← hparts, hzero]
    · rw [Nat.max_eq_right (by omega), Nat.add_sub_cancel]
      rw [Nat.succ_mul] at hparts ⊢
      omega
  · rw [if_neg hzero, Nat.add_sub_cancel, Nat.succ_mul]
    omega

/-- A page starts at a row that was counted, or there are no rows and it is the first. -/
theorem mul_size_le_of_lt (total : UInt64) {size : UInt64} {i : Nat} (h : size ≠ 0)
    (hi : i < (pageCount total size).toNat) : i * size.toNat ≤ total.toNat := by
  rcases pageCount_spec total h with ⟨-, hempty, hlast⟩
  by_cases hpos : 0 < total.toNat
  · have hmul : i * size.toNat ≤ ((pageCount total size).toNat - 1) * size.toNat :=
      Nat.mul_le_mul_right _ (by omega)
    have hbefore := (hlast hpos).2
    omega
  · have hfirst := hempty (by omega)
    rw [show i = 0 by omega, Nat.zero_mul]
    omega

/-- A window that was narrowed has no more rows than the slice has positions, and no less than
    the slice has. This is true also if the position of the first of them is no count, as the
    rows from the greatest count on are no less than those from its position on. -/
theorem Window.length_rows_narrow {α : Type} (w : Window) (start stop : UInt64) (all : List α) :
    ((w.narrow start (some stop)).rows all).length ≤ stop.toNat - start.toNat ∧
      (between start.toNat (some stop.toNat) (w.rows all)).length ≤
        ((w.narrow start (some stop)).rows all).length := by
  have hdrop : (all.drop (w.offset.toNat + start.toNat)).length ≤
      (all.drop (addCount w.offset start).toNat).length := by
    rw [List.length_drop, List.length_drop, toNat_addCount]
    omega
  unfold rows narrow between
  cases w.limit with
  | none =>
    simp only [toNat_subCount, List.drop_take, List.drop_drop, List.length_take]
    exact ⟨Nat.min_le_left _ _, min_le_min_left _ hdrop⟩
  | some limit =>
    simp only [toNat_subCount, toNat_minCount, List.take_take, List.drop_take, List.drop_drop,
      List.length_take]
    refine ⟨Nat.le_trans (Nat.min_le_left _ _) ?_, min_le_min_left _ hdrop⟩
    exact Nat.sub_le_sub_right (Nat.min_le_left _ _) _

/-- There are as many pages as are counted, and each starts after the full pages before it.
    That number of rows is a count, however large the page and the size are. -/
theorem pageStart_eq_ok_iff {total number size start pages : UInt64} :
    pageStart total number size = .ok (start, pages) ↔
      size ≠ 0 ∧ 1 ≤ number.toNat ∧ number.toNat ≤ (pageCount total size).toNat ∧
        start.toNat = (number.toNat - 1) * size.toNat ∧ pages = pageCount total size := by
  unfold pageStart
  by_cases hsize : size = 0
  · rw [if_pos hsize]
    constructor
    · intro h
      cases h
    · intro h
      exact absurd hsize h.1
  · rw [if_neg hsize]
    by_cases hnumber : number = 0
    · rw [if_pos hnumber, hnumber]
      constructor
      · intro h
        cases h
      · intro h
        exact absurd h.2.1 (by decide)
    · rw [if_neg hnumber]
      have hone : 1 ≤ number.toNat := by
        refine Nat.pos_of_ne_zero fun hzero => hnumber ?_
        exact UInt64.toNat_inj.1 hzero
      by_cases hrange : pageCount total size < number
      · rw [if_pos hrange]
        rw [UInt64.lt_iff_toNat_lt] at hrange
        constructor
        · intro h
          cases h
        · intro h
          omega
      · rw [if_neg hrange]
        rw [UInt64.lt_iff_toNat_lt] at hrange
        have hle : (number.toNat - 1) * size.toNat ≤ total.toNat :=
          mul_size_le_of_lt total hsize (by omega)
        have hlt := total.toNat_lt
        have hpred : (number - 1).toNat = number.toNat - 1 :=
          UInt64.toNat_sub_of_le number 1 (UInt64.le_iff_toNat_le.2 hone)
        have hproduct : ((number - 1) * size).toNat = (number.toNat - 1) * size.toNat := by
          rw [UInt64.toNat_mul, hpred, Nat.mod_eq_of_lt (by omega)]
        constructor
        · intro h
          cases h
          exact ⟨hsize, hone, by omega, hproduct, rfl⟩
        · rintro ⟨-, -, -, hstart, rfl⟩
          rw [show start = (number - 1) * size from
            UInt64.toNat_inj.1 (hstart.trans hproduct.symm)]

/-- The first parts of a list, one after the other, are its front. -/
theorem take_mul_eq_flatMap {α : Type} (xs : List α) (width count : Nat) :
    xs.take (count * width) =
      (List.range count).flatMap fun i => (xs.drop (i * width)).take width := by
  induction count with
  | zero => simp
  | succ count ih =>
    rw [Nat.succ_mul, List.take_add, List.range_succ, List.flatMap_append, ← ih]
    simp

namespace Query

/-- The query for the rows of a page, and the number of pages. -/
def page (q : Query) (total number size : UInt64) : Except Fault (Query × UInt64) := do
  let (start, pages) ← pageStart total number size
  let rows ← q.slice (.included start) (.excluded (start + size))
  pure (rows, pages)

/-- The query for as many rows as a page has, after the rows of some pages. -/
def pageAfter (q : Query) (before : Nat) (size : UInt64) : Query :=
  let start := UInt64.ofNat (before * size.toNat)
  { q with window := q.window.narrow start (some (start + size)) }

theorem toNat_pageAfter {count : Nat} {size : UInt64}
    (h : count * size.toNat + size.toNat < UInt64.size) :
    (UInt64.ofNat (count * size.toNat)).toNat = count * size.toNat ∧
      (UInt64.ofNat (count * size.toNat) + size).toNat = count * size.toNat + size.toNat := by
  have hstart : (UInt64.ofNat (count * size.toNat)).toNat = count * size.toNat :=
    UInt64.toNat_ofNat_of_lt' (by omega)
  exact ⟨hstart, by rw [UInt64.toNat_add, hstart, Nat.mod_eq_of_lt h]⟩

/-- The rows of a page are rows of the query, if the first of them has a position that is a
    count. -/
theorem rows_pageAfter {α : Type} (q : Query) {all : List α} {count : Nat} {size : UInt64}
    (hend : count * size.toNat + size.toNat < UInt64.size)
    (hplace : q.window.offset.toNat + count * size.toNat < UInt64.size) :
    (q.pageAfter count size).window.rows all =
      ((q.window.rows all).drop (count * size.toNat)).take size.toNat := by
  rcases toNat_pageAfter hend with ⟨hstart, hstop⟩
  unfold pageAfter
  dsimp only
  rw [Window.rows_narrow q.window _ _ (Or.inr (by rw [hstart]; exact hplace)), hstart,
    Option.map_some, hstop, Window.between, List.drop_take, Nat.add_sub_cancel_left]

/-- A page that is accepted is that after the pages before it. -/
theorem page_eq (q : Query) {total number size : UInt64} (hsize : size ≠ 0)
    (hfit : total.toNat + size.toNat < UInt64.size) (hone : 1 ≤ number.toNat)
    (hle : number.toNat ≤ (pageCount total size).toNat) :
    q.page total number size =
      .ok (q.pageAfter (number.toNat - 1) size, pageCount total size) := by
  have hend : (number.toNat - 1) * size.toNat ≤ total.toNat :=
    mul_size_le_of_lt total hsize (by omega)
  have hstart := @toNat_pageAfter (number.toNat - 1) size (by omega)
  have hpage := pageStart_eq_ok_iff.2 ⟨hsize, hone, hle, hstart.1, rfl⟩
  -- The end of the page does not come before its start.
  have hslice : Window.isRefused (.included (UInt64.ofNat ((number.toNat - 1) * size.toNat)))
      (.excluded (UInt64.ofNat ((number.toNat - 1) * size.toNat) + size)) = false := by
    have hends : Window.endsBeforeStart
        (.included (UInt64.ofNat ((number.toNat - 1) * size.toNat)))
        (.excluded (UInt64.ofNat ((number.toNat - 1) * size.toNat) + size)) = false := by
      simp only [Window.endsBeforeStart, Bound.past, Bound.first, Option.any_some, hstart]
      exact decide_eq_false (by omega)
    rw [Window.isRefused, hends, Bool.false_and]
  unfold page
  rw [hpage]
  dsimp only [Bind.bind, Except.bind]
  rw [slice_eq, hslice]
  rfl

end Query

/-- A session counts the rows of a query and then asks for those of the page. -/
theorem Session.page_eq (s : Session) (q : Query) (number size : UInt64) :
    s.page q number size = (do
      let total ← s.count q
      let (rows, pages) ← Exchanging.checked (q.page total number size)
      let records ← s.fetch rows
      pure ⟨records, total, pages, number, size⟩) := by
  unfold Session.page Query.page
  congr 1
  funext total
  cases pageStart total number size with
  | error fault => rfl
  | ok found =>
    rcases found with ⟨start, pages⟩
    show (do
      let rows ← Exchanging.checked (q.slice (.included start) (.excluded (start + size)))
      let records ← s.fetch rows
      pure (⟨records, total, pages, number, size⟩ : Page)) = _
    cases hslice : q.slice (.included start) (.excluded (start + size)) with
    | error fault =>
      simp only [Bind.bind, Except.bind, hslice]
      rfl
    | ok rows =>
      simp only [Bind.bind, Except.bind, hslice]
      rfl

namespace Query

variable {α : Type} {all : List α} {total size : UInt64}

/-- A page that is counted has no more rows than its size, and no less than are left after the
    pages before it. -/
theorem length_pageAfter (q : Query) (htotal : total.toNat = (q.window.rows all).length)
    (hsize : size ≠ 0) (hfit : total.toNat + size.toNat < UInt64.size) {i : Nat}
    (hi : i < (pageCount total size).toNat) :
    ((q.pageAfter i size).window.rows all).length ≤ size.toNat ∧
      min size.toNat (total.toNat - i * size.toNat) ≤
        ((q.pageAfter i size).window.rows all).length := by
  have hle := mul_size_le_of_lt total hsize hi
  rcases @toNat_pageAfter i size (by omega) with ⟨hstart, hstop⟩
  rcases Window.length_rows_narrow q.window (UInt64.ofNat (i * size.toNat))
    (UInt64.ofNat (i * size.toNat) + size) all with ⟨hmost, hleast⟩
  rw [hstart, hstop] at hmost hleast
  rw [Nat.add_sub_cancel_left] at hmost
  refine ⟨hmost, Nat.le_trans ?_ hleast⟩
  rw [Window.between, List.drop_take, List.length_take, List.length_drop, ← htotal,
    Nat.add_sub_cancel_left]

/-- The rows of the pages that are counted are the rows of the query, if the last page starts
    at a count, and so all of them do. -/
theorem rows_pages (q : Query) (htotal : total.toNat = (q.window.rows all).length)
    (hsize : size ≠ 0) (hfit : total.toNat + size.toNat < UInt64.size)
    (hplace : q.window.offset.toNat + ((pageCount total size).toNat - 1) * size.toNat <
      UInt64.size) :
    ((List.range (pageCount total size).toNat).flatMap fun i =>
      (q.pageAfter i size).window.rows all) = q.window.rows all := by
  rcases pageCount_spec total hsize with ⟨hroom, -, -⟩
  have hrows : ∀ i < (pageCount total size).toNat, (q.pageAfter i size).window.rows all =
      ((q.window.rows all).drop (i * size.toNat)).take size.toNat := by
    intro i hi
    have hle := mul_size_le_of_lt total hsize hi
    have hmul : i * size.toNat ≤ ((pageCount total size).toNat - 1) * size.toNat :=
      Nat.mul_le_mul_right _ (by omega)
    exact rows_pageAfter q (by omega) (by omega)
  rw [List.flatMap_congr fun i hi => hrows i (List.mem_range.1 hi), ← take_mul_eq_flatMap]
  exact List.take_of_length_le (htotal ▸ hroom)

/-- The rows of the pages are the rows of the query, if each page starts at a count. There are
    as many pages as are counted, all but the last are full, and none is empty if there are
    rows. A session that counted the rows asks for these pages and refuses all other numbers.
    The rows before a page are counted without overflow, for all numbers. -/
theorem pages_tile (q : Query) (htotal : total.toNat = (q.window.rows all).length)
    (hsize : size ≠ 0) (hfit : total.toNat + size.toNat < UInt64.size) :
    (∀ number, (∃ found, pageStart total number size = .ok found) ↔
      1 ≤ number.toNat ∧ number.toNat ≤ (pageCount total size).toNat) ∧
    (∀ total number size start pages, pageStart total number size = .ok (start, pages) →
      size ≠ 0 ∧ start.toNat = (number.toNat - 1) * size.toNat) ∧
    (∀ (s : Session) number size, s.page q number size = (do
      let total ← s.count q
      let (rows, pages) ← Exchanging.checked (q.page total number size)
      let records ← s.fetch rows
      pure ⟨records, total, pages, number, size⟩)) ∧
    ∃ pages : List Query, pages.length = (pageCount total size).toNat ∧
      (total.toNat = 0 → pages.length = 1) ∧
      (∀ i (h : i < pages.length),
        q.page total (UInt64.ofNat (i + 1)) size = .ok (pages[i], pageCount total size)) ∧
      (∀ i (h : i < pages.length),
        (pages[i].window.rows all).length ≤ size.toNat ∧
        (i + 1 < pages.length → (pages[i].window.rows all).length = size.toNat) ∧
        (0 < total.toNat → pages[i].window.rows all ≠ [])) ∧
      (q.window.offset.toNat + (pages.length - 1) * size.toNat < UInt64.size →
        (pages.flatMap fun p => p.window.rows all) = q.window.rows all) := by
  refine ⟨fun number => ⟨?_, ?_⟩, ?_, fun s number size => s.page_eq q number size, ?_⟩
  · rintro ⟨⟨start, pages⟩, h⟩
    rcases pageStart_eq_ok_iff.1 h with ⟨-, hone, hle, -, -⟩
    exact ⟨hone, hle⟩
  · rintro ⟨hone, hle⟩
    have hbefore : (number.toNat - 1) * size.toNat ≤ total.toNat :=
      mul_size_le_of_lt total hsize (by omega)
    have hlt := total.toNat_lt_size
    exact ⟨_, pageStart_eq_ok_iff.2 ⟨hsize, hone, hle,
      UInt64.toNat_ofNat_of_lt' (by omega), rfl⟩⟩
  · intro total number size start pages h
    rcases pageStart_eq_ok_iff.1 h with ⟨hsize, -, -, hstart, -⟩
    exact ⟨hsize, hstart⟩
  · rcases pageCount_spec total hsize with ⟨-, hempty, hlast⟩
    refine ⟨(List.range (pageCount total size).toNat).map (q.pageAfter · size), ?_⟩
    simp only [List.length_map, List.length_range, List.getElem_map, List.getElem_range,
      List.flatMap_map]
    refine ⟨trivial, hempty, fun i hi => ?_, fun i hi => ?_, rows_pages q htotal hsize hfit⟩
    · have hlt := (pageCount total size).toNat_lt_size
      have hnumber : (UInt64.ofNat (i + 1)).toNat = i + 1 :=
        UInt64.toNat_ofNat_of_lt' (by omega)
      rw [page_eq q hsize hfit (by omega) (by omega), hnumber, Nat.add_sub_cancel]
    · rcases length_pageAfter q htotal hsize hfit hi with ⟨hmost, hleast⟩
      refine ⟨hmost, fun hnext => ?_, fun hsome => ?_⟩
      · -- A page before the last one, and all pages before it, are shorter than the rows.
        have hless := mul_size_le_of_lt total hsize hnext
        rw [Nat.succ_mul] at hless
        omega
      · have hmul : i * size.toNat ≤ ((pageCount total size).toNat - 1) * size.toNat :=
          Nat.mul_le_mul_right _ (by omega)
        have hless := (hlast hsome).2
        have hpos := Nat.pos_of_ne_zero (toNat_ne_zero.2 hsize)
        exact List.ne_nil_of_length_pos (by omega)

/-- Eleven of forty visitors are on three pages. -/
theorem pages_of_visitors :
    (11 : UInt64).toNat =
        (((Query.all visitors).limitWithOffset 11 20).window.rows (List.range 40)).length ∧
      (4 : UInt64) ≠ 0 ∧ (11 : UInt64).toNat + (4 : UInt64).toNat < UInt64.size ∧
      ∃ pages : List Query, pages.length = (pageCount 11 4).toNat ∧
        (pages.flatMap fun p => p.window.rows (List.range 40)) = List.range' 20 11 := by
  refine ⟨by decide, by decide, by decide, ?_⟩
  rcases (@pages_tile Nat (List.range 40) 11 4 ((Query.all visitors).limitWithOffset 11 20)
    (by decide) (by decide) (by decide)).2.2.2 with ⟨pages, hlength, -, -, -, htile⟩
  have hcount : (pageCount 11 4).toNat = 3 := by decide
  have hplace : ((Query.all visitors).limitWithOffset 11 20).window.offset.toNat +
      (pages.length - 1) * (4 : UInt64).toNat < UInt64.size := by
    rw [hlength, hcount]
    decide
  exact ⟨pages, hlength, (htile hplace).trans (by decide)⟩

/-- The rows that are left if there are as many before them as the greatest count. -/
def afterGreatest : Query := (Query.all visitors).limitWithOffset 100 0xFFFFFFFFFFFFFFFF

/-- Four rows after the greatest count are on four pages of one row, but the second page is
    the first one again. -/
theorem last_page_repeated :
    (4 : UInt64).toNat + (1 : UInt64).toNat < UInt64.size ∧
      afterGreatest.window.rows (List.range (UInt64.size + 3)) =
        [UInt64.size - 1, UInt64.size, UInt64.size + 1, UInt64.size + 2] ∧
      ∃ first second, afterGreatest.page 4 1 1 = .ok (first, 4) ∧
        afterGreatest.page 4 2 1 = .ok (second, 4) ∧
        first.window.rows (List.range (UInt64.size + 3)) = [UInt64.size - 1] ∧
        second.window.rows (List.range (UInt64.size + 3)) = [UInt64.size - 1] := by
  have hrest : (List.range (UInt64.size + 3)).drop (UInt64.size - 1) =
      List.range' (UInt64.size - 1) 4 := by
    rw [List.range_eq_range', List.drop_range']
    rfl
  refine ⟨by decide, ?_, _, _, rfl, rfl, ?_, ?_⟩
  · exact (congrArg (List.take 100) hrest).trans rfl
  · exact (congrArg (List.take 1) hrest).trans rfl
  · exact (congrArg (List.take 1) hrest).trans rfl

end Query

end ColumnStore
