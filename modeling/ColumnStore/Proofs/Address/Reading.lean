import ColumnStore.Address.Ipv6
import ColumnStore.Proofs.Number.Hex
import ColumnStore.Proofs.Number.Whole
import ColumnStore.Proofs.Text.Cells

/-!
# Reading Identifiers and Addresses Back

Unique identifiers and internet addresses are read back from their written forms. The
address of sixteen bytes has three of them: one that ends in an address of four bytes,
one where two colons stand for a run of zeros, and one that has all eight numbers.
Where the colons stand for zeros, they are the first two that follow each other, since
every number before them has a digit.

## Theorems

* `Uuid.read?_text`, `Ipv4.read?_text`, `Ipv6.read?_text`: What is written is read back.
-/

namespace ColumnStore

namespace Uuid

/-- What is cut into groups is put together again. -/
theorem ungroup?_hyphenated (ns : List Nat) (s : List Char) (h : s.length = ns.sum) :
    ungroup? ns (hyphenated ns s) = some s := by
  induction ns generalizing s with
  | nil =>
    have hnil : s = [] := List.length_eq_zero_iff.1 h
    rw [hnil]
    rfl
  | cons n ns ih =>
    rw [List.sum_cons] at h
    have hlength : (s.take n).length = n := by
      rw [List.length_take]
      omega
    cases ns with
    | nil =>
      have hall : s.take n = s := List.take_of_length_le (by simpa using Nat.le_of_eq h)
      rw [hyphenated, hall, ungroup?, if_pos (by simpa using h)]
    | cons n' ns =>
      have hrest := ih (s.drop n) (by
        rw [List.length_drop]
        omega)
      have hdrop : (s.take n ++ '-' :: hyphenated (n' :: ns) (s.drop n)).drop n =
          '-' :: hyphenated (n' :: ns) (s.drop n) := by
        rw [List.drop_append_of_le_length (Nat.le_of_eq hlength.symm), List.drop_of_length_le
          (Nat.le_of_eq hlength), List.nil_append]
      have htake : (s.take n ++ '-' :: hyphenated (n' :: ns) (s.drop n)).take n = s.take n := by
        rw [List.take_append_of_le_length (Nat.le_of_eq hlength.symm), List.take_take, Nat.min_self]
      simp only [hyphenated, ungroup?, hdrop, htake, hrest, Option.map_some,
        List.take_append_drop]

/-- There is a hyphen after every group but the last one. -/
theorem length_hyphenated (n : Nat) (ns : List Nat) (s : List Char)
    (h : s.length = (n :: ns).sum) : (hyphenated (n :: ns) s).length = s.length + ns.length := by
  induction ns generalizing n s with
  | nil =>
    simp only [hyphenated, List.length_take, List.length_nil]
    simp only [List.sum_cons, List.sum_nil] at h
    omega
  | cons n' ns ih =>
    have hrest := ih n' (s.drop n) (by
      rw [List.length_drop]
      simp only [List.sum_cons] at h ⊢
      omega)
    simp only [List.sum_cons] at h
    rw [hyphenated, List.length_append, List.length_cons, hrest, List.length_take,
      List.length_drop, List.length_cons]
    · omega
    · simp

theorem read?_text (u : Uuid) : read? u.text = some u := by
  have hdigits : (Number.hexPadded 32 u.bits.toNat).length = groups.sum :=
    Number.length_hexPadded 32 u.bits.toNat
  have hlength : u.text.length = 36 := by
    have h := length_hyphenated 8 [4, 4, 4, 12] _ hdigits
    rw [Number.length_hexPadded] at h
    exact h
  -- The hyphens make it too long to be taken for digits alone.
  have hsimple : simple? u.text = none := by
    rw [simple?, if_neg (by omega)]
  have hless : u.bits.toNat % 16 ^ 32 = u.bits.toNat := Nat.mod_eq_of_lt u.bits.isLt
  have hgrouped : grouped? u.text = some u := by
    rw [grouped?, text, ungroup?_hyphenated groups _ hdigits, Option.bind_some, simple?,
      if_pos (Number.length_hexPadded 32 _), Number.ofHexDigits?_hexPadded, hless]
    simp only [Option.map_some, BitVec.ofNat_toNat, BitVec.setWidth_eq]
  rw [read?, hsimple, hgrouped]
  rfl

end Uuid

namespace Ipv4

theorem byte?_digits {n : Nat} (h : n < 256) : byte? (Number.digits n) = some n := by
  have hall : ∀ n < 256, byte? (Number.digits n) = some n := by decide +kernel
  exact hall n h

theorem ne_of_mem_digits {n : Nat} {c sep : Char} (hsep : sep.isDigit = false)
    (hc : c ∈ Number.digits n) : c ≠ sep := by
  intro h
  have hdigit := Number.isDigit_of_mem_digits hc
  rw [h, hsep] at hdigit
  exact absurd hdigit (by decide)

/-- The written form of an address is read as the address. -/
theorem dotted?_text (a : Ipv4) : dotted? a.text = some a := by
  have hdot {n : Nat} : ∀ c ∈ Number.digits n, c ≠ '.' :=
    fun c hc => ne_of_mem_digits (by decide) hc
  have hsplit : Text.splitOn '.' a.text = [Number.digits (a.byte 3), Number.digits (a.byte 2),
      Number.digits (a.byte 1), Number.digits (a.byte 0)] := by
    simp only [text, List.append_assoc, List.cons_append]
    rw [Text.splitOn_append hdot, Text.splitOn_append hdot, Text.splitOn_append hdot,
      Text.splitOn_of_forall_ne hdot]
  have hbyte (i : Nat) : byte? (Number.digits (a.byte i)) = some (a.byte i) :=
    byte?_digits (Nat.mod_lt _ (by decide))
  have hbits : ((a.byte 3 * 256 + a.byte 2) * 256 + a.byte 1) * 256 + a.byte 0 =
      a.bits.toNat := by
    have hless := a.bits.toNat_lt
    simp only [byte, Nat.pow_eq, Nat.reducePow]
    omega
  have hbytes : [Number.digits (a.byte 3), Number.digits (a.byte 2), Number.digits (a.byte 1),
      Number.digits (a.byte 0)].mapM byte? =
        some [a.byte 3, a.byte 2, a.byte 1, a.byte 0] := by
    simp [hbyte]
  rw [dotted?, hsplit, hbytes]
  simp only [Option.bind_eq_bind, Option.bind_some, hbits, UInt32.ofNat_toNat]

theorem read?_text (a : Ipv4) : read? a.text = some a := by
  rw [read?, dotted?_text]
  rfl

/-- The written form is longer than any hexadecimal number of an address of sixteen
    bytes, and has no colon. -/
theorem text_spec (a : Ipv4) : 4 < a.text.length ∧ ∀ c ∈ a.text, c ≠ ':' := by
  have hpos (n : Nat) : 0 < (Number.digits n).length :=
    List.length_pos_iff.2 (Number.digits_ne_nil n)
  have hcolon {n : Nat} {c : Char} (hc : c ∈ Number.digits n) : c ≠ ':' :=
    ne_of_mem_digits (by decide) hc
  constructor
  · have h3 := hpos (a.byte 3)
    have h2 := hpos (a.byte 2)
    simp only [text, List.length_append, List.length_cons]
    omega
  · intro c hc
    simp only [text, List.append_assoc, List.cons_append, List.mem_append, List.mem_cons] at hc
    rcases hc with hc | rfl | hc | rfl | hc | rfl | hc
    · exact hcolon hc
    · decide
    · exact hcolon hc
    · decide
    · exact hcolon hc
    · decide
    · exact hcolon hc

end Ipv4

namespace Ipv6

/-! ## Numbers with colons between them -/

theorem ne_of_mem_segmentText {n : Nat} {c : Char} (h : c ∈ segmentText n) : c ≠ ':' := by
  intro hc
  have hdigit := Number.isSome_hexValue?_of_mem_toDigits h
  rw [hc] at hdigit
  exact absurd hdigit (by decide)

theorem segment?_segmentText {n : Nat} (h : n < 65536) : segment? (segmentText n) = some n := by
  have hle : (segmentText n).length ≤ 4 := (Nat.length_toDigits_le_iff (by decide) (by decide)).2 h
  have hpos : 1 ≤ (segmentText n).length := List.length_pos_iff.2 Nat.toDigits_ne_nil
  simp only [segment?, hpos, hle, decide_true, Bool.and_self, if_true]
  exact Number.ofHexDigits?_toDigits n

theorem joined_singleton (n : Nat) : joined [n] = segmentText n := by
  simp [joined, List.intercalate]

theorem joined_cons_cons (n n' : Nat) (ns : List Nat) :
    joined (n :: n' :: ns) = segmentText n ++ ':' :: joined (n' :: ns) := by
  simp [joined, List.intercalate]

/-- Numbers with colons between them are the parts between the colons. -/
theorem splitOn_joined (n : Nat) (ns : List Nat) :
    Text.splitOn ':' (joined (n :: ns)) = (n :: ns).map segmentText := by
  have hcolon (n : Nat) : ∀ c ∈ segmentText n, c ≠ ':' := fun c hc => ne_of_mem_segmentText hc
  induction ns generalizing n with
  | nil => rw [joined_singleton, Text.splitOn_of_forall_ne (hcolon n)]; rfl
  | cons n' ns ih => rw [joined_cons_cons, Text.splitOn_append (hcolon n), ih n']; rfl

/-- Numbers with colons between them start with a digit. -/
theorem exists_joined_eq_cons (n : Nat) (ns : List Nat) :
    ∃ c r, joined (n :: ns) = c :: r ∧ c ≠ ':' := by
  have hne : segmentText n ≠ [] := Nat.toDigits_ne_nil
  cases hs : segmentText n with
  | nil => exact absurd hs hne
  | cons c s =>
    have hc : c ≠ ':' := ne_of_mem_segmentText (hs ▸ List.mem_cons_self)
    cases ns with
    | nil => exact ⟨c, s, by rw [joined_singleton, hs], hc⟩
    | cons n' ns => exact ⟨c, s ++ ':' :: joined (n' :: ns), by rw [joined_cons_cons, hs]; rfl, hc⟩

theorem joined_ne_nil (n : Nat) (ns : List Nat) : joined (n :: ns) ≠ [] := by
  rcases exists_joined_eq_cons n ns with ⟨c, r, h, -⟩
  rw [h]
  exact List.cons_ne_nil c r

theorem segments?_map {ns : List Nat} (h : ∀ n ∈ ns, n < 65536) :
    segments? (ns.map segmentText) = some ns := by
  induction ns with
  | nil => rfl
  | cons n ns ih =>
    have hn := segment?_segmentText (h n List.mem_cons_self)
    have hns := ih fun m hm => h m (List.mem_cons_of_mem n hm)
    cases ns with
    | nil =>
      simp only [List.map_cons, List.map_nil, segments?, hn, Option.map_some]
      rfl
    | cons n' ns =>
      rw [List.map_cons] at hns
      simp only [List.map_cons, segments?, hn, hns, Option.bind_eq_bind, Option.bind_some,
        Option.pure_def]

theorem mapM_segment?_map {ns : List Nat} (h : ∀ n ∈ ns, n < 65536) :
    (ns.map segmentText).mapM segment? = some ns := by
  induction ns with
  | nil => rfl
  | cons n ns ih =>
    have hn := segment?_segmentText (h n List.mem_cons_self)
    have hns := ih fun m hm => h m (List.mem_cons_of_mem n hm)
    simp only [List.map_cons, List.mapM_cons, hn, hns, Option.bind_eq_bind, Option.bind_some,
      Option.pure_def]

/-- Numbers are read back from their text, whether more may follow them or not. -/
theorem leading?_joined {ns : List Nat} (h : ∀ n ∈ ns, n < 65536) :
    leading? (joined ns) = some ns ∧ trailing? (joined ns) = some ns := by
  cases ns with
  | nil => exact ⟨rfl, rfl⟩
  | cons n ns =>
    rw [leading?, trailing?, if_neg (joined_ne_nil n ns), if_neg (joined_ne_nil n ns),
      splitOn_joined]
    exact ⟨mapM_segment?_map h, segments?_map h⟩

/-! ## The first two colons -/

theorem cut_append {w : List Char} (hw : ∀ c ∈ w, c ≠ ':') (r : List Char) :
    cut (w ++ r) = (cut r).map fun p => (w ++ p.1, p.2) := by
  induction w with
  | nil => simp
  | cons c w ih =>
    have hc := hw c List.mem_cons_self
    have hstep : cut (c :: (w ++ r)) = (cut (w ++ r)).map fun p => (c :: p.1, p.2) := by
      rw [cut]
      intro r' h
      exact absurd h hc
    rw [List.cons_append, hstep, ih fun d hd => hw d (List.mem_cons_of_mem c hd), Option.map_map]
    rfl

/-- No two colons follow each other in numbers with colons between them. -/
theorem cut_joined (n : Nat) (ns : List Nat) (r : List Char) :
    cut (joined (n :: ns) ++ r) = (cut r).map fun p => (joined (n :: ns) ++ p.1, p.2) := by
  have hcolon (n : Nat) : ∀ c ∈ segmentText n, c ≠ ':' := fun c hc => ne_of_mem_segmentText hc
  induction ns generalizing n with
  | nil =>
    rw [joined_singleton]
    exact cut_append (hcolon n) r
  | cons n' ns ih =>
    have hstep : cut (':' :: (joined (n' :: ns) ++ r)) =
        (cut (joined (n' :: ns) ++ r)).map fun p => (':' :: p.1, p.2) := by
      rcases exists_joined_eq_cons n' ns with ⟨c, s, hs, hc⟩
      rw [hs, List.cons_append, cut]
      intro r' _ h
      exact hc (List.cons.inj h).1
    rw [joined_cons_cons, List.append_assoc, List.cons_append, cut_append (hcolon n), hstep, ih n',
      Option.map_map, Option.map_map]
    simp only [Function.comp_def, List.append_assoc, List.cons_append]

/-- The text before two colons and after them. -/
theorem cut_two (ns : List Nat) (r : List Char) :
    cut (joined ns ++ ':' :: ':' :: r) = some (joined ns, r) := by
  cases ns with
  | nil => rfl
  | cons n ns =>
    have hhere : cut (':' :: ':' :: r) = some ([], r) := rfl
    rw [cut_joined, hhere, Option.map_some, List.append_nil]

/-! ## The eight numbers -/

/-- Places of a number, from one of them downwards, denote what stands there. -/
theorem foldl_places {b : Nat} (n m k : Nat) (hk : k ≤ m + 1) :
    ((List.range k).map fun i => n / b ^ (m - i) % b).foldl (fun x s => b * x + s) 0 =
      n / b ^ (m + 1 - k) % b ^ k := by
  induction k with
  | zero => simp [Nat.mod_one]
  | succ k ih =>
    have hexp : m + 1 - k = (m - k) + 1 := by omega
    have hexp' : m + 1 - (k + 1) = m - k := by omega
    rw [List.range_succ, List.map_append, List.foldl_append, ih (by omega), hexp, hexp',
      Nat.pow_succ, ← Nat.div_div_eq_div_mul, Nat.pow_succ', Nat.mod_mul]
    simp only [List.map_cons, List.map_nil, List.foldl_cons, List.foldl_nil]
    omega

/-- An address is made of its eight numbers. -/
theorem ofSegments_segments (a : Ipv6) : ofSegments a.segments = a := by
  have hless : a.bits.toNat < 65536 ^ 8 := a.bits.isLt
  have hfold := foldl_places (b := 65536) a.bits.toNat 7 8 (by decide)
  rw [Nat.sub_self, Nat.pow_zero, Nat.div_one, Nat.mod_eq_of_lt hless] at hfold
  rw [ofSegments, segments]
  simp only [Nat.pow_eq, hfold, BitVec.ofNat_toNat, BitVec.setWidth_eq]

theorem lt_of_mem_segments {a : Ipv6} {n : Nat} (h : n ∈ a.segments) : n < 65536 := by
  rcases List.mem_map.1 h with ⟨i, -, rfl⟩
  exact Nat.mod_lt _ (by decide)

/-! ## The run of zeros -/

/-- What starts with zeros is that many zeros and what follows them. -/
theorem replicate_append_drop {ns : List Nat} {k : Nat} (h : k ≤ zeros ns) :
    List.replicate k 0 ++ ns.drop k = ns := by
  induction ns generalizing k with
  | nil =>
    have hk : k = 0 := by simpa [zeros] using h
    rw [hk]
    rfl
  | cons n ns ih =>
    cases k with
    | zero => rfl
    | succ k =>
      by_cases hn : n = 0
      · have hzeros : zeros (n :: ns) = zeros ns + 1 := by simp [zeros, hn]
        rw [hzeros] at h
        rw [List.replicate_succ, List.drop_succ_cons, List.cons_append,
          ih (Nat.le_of_succ_le_succ h), hn]
      · have hzeros : zeros (n :: ns) = 0 := by simp [zeros, hn]
        omega

/-- The longest run is one of zeros. -/
theorem longestRun_spec (ns : List Nat) :
    (longestRun ns).2 ≤ zeros (ns.drop (longestRun ns).1) := by
  unfold longestRun
  generalize List.range ns.length = starts
  -- Induction on the starts that are tried, whichever run was the best one before.
  have hrun : ∀ best : Nat × Nat, best.2 ≤ zeros (ns.drop best.1) →
      (starts.foldl (fun best i =>
          if best.2 < zeros (ns.drop i) then (i, zeros (ns.drop i)) else best) best).2 ≤
        zeros (ns.drop (starts.foldl (fun best i =>
          if best.2 < zeros (ns.drop i) then (i, zeros (ns.drop i)) else best) best).1) := by
    induction starts with
    | nil => exact fun best h => h
    | cons i starts ih =>
      intro best h
      rw [List.foldl_cons]
      refine ih _ ?_
      split
      · exact Nat.le_refl _
      · exact h
  exact hrun (0, 0) (Nat.zero_le _)

/-- Numbers with a run of zeros cut out are put together again. -/
theorem take_append_replicate_append_drop (ns : List Nat) :
    ns.take (longestRun ns).1 ++ List.replicate (longestRun ns).2 0 ++
      ns.drop ((longestRun ns).1 + (longestRun ns).2) = ns := by
  have hzeros := replicate_append_drop (longestRun_spec ns)
  rw [List.drop_drop] at hzeros
  rw [List.append_assoc, hzeros, List.take_append_drop]

/-- An address that stands for one of four bytes ends in it. -/
theorem toNat_of_toIpv4? {a : Ipv6} {v4 : Ipv4} (h : a.toIpv4? = some v4) :
    a.bits.toNat = UInt32.size * 65535 + v4.bits.toNat := by
  unfold toIpv4? at h
  by_cases hhigh : a.bits.toNat / UInt32.size = 0xFFFF
  · rw [if_pos hhigh] at h
    have hless : a.bits.toNat % UInt32.size < UInt32.size := Nat.mod_lt _ (by decide)
    rw [← Option.some.inj h, UInt32.toNat_ofNat_of_lt' hless, ← hhigh, Nat.div_add_mod]
  · rw [if_neg hhigh] at h
    cases h

/-- An address that ends in an address of four bytes is read back. -/
theorem read?_of_toIpv4? {a : Ipv6} {v4 : Ipv4} (h : a.toIpv4? = some v4) :
    read? ("::ffff:".toList ++ v4.text) = some a := by
  have hcut : cut ("::ffff:".toList ++ v4.text) = some ([], "ffff:".toList ++ v4.text) := rfl
  have hsplit : Text.splitOn ':' ("ffff:".toList ++ v4.text) = ["ffff".toList, v4.text] := by
    have hword : "ffff:".toList ++ v4.text = "ffff".toList ++ ':' :: v4.text := rfl
    rw [hword, Text.splitOn_append (by simp), Text.splitOn_of_forall_ne v4.text_spec.2]
  -- The last part is too long for a number of sixteen bits, so that it is read as four
  -- bytes.
  have hlong : segment? v4.text = none := by
    have hlength := v4.text_spec.1
    have hfour : ¬ v4.text.length ≤ 4 := by omega
    simp [segment?, hfour]
  have hffff : segment? "ffff".toList = some 65535 := by decide
  have htrailing : trailing? ("ffff:".toList ++ v4.text) =
      some [65535, v4.bits.toNat / 65536, v4.bits.toNat % 65536] := by
    have hne : "ffff:".toList ++ v4.text ≠ [] := by simp
    rw [trailing?, if_neg hne, hsplit]
    simp only [segments?, hffff, hlong, v4.dotted?_text, Option.bind_eq_bind, Option.bind_some]
    rfl
  have hleading : leading? [] = some [] := rfl
  have hvalue : 65536 * (65536 * 65535 + v4.bits.toNat / 65536) + v4.bits.toNat % 65536 =
      a.bits.toNat := by
    have hmapped : UInt32.size * 65535 = 281470681743360 := by decide
    rw [toNat_of_toIpv4? h, hmapped]
    omega
  have hsegments : ofSegments [0, 0, 0, 0, 0, 65535, v4.bits.toNat / 65536,
      v4.bits.toNat % 65536] = a := by
    have hfold : [0, 0, 0, 0, 0, 65535, v4.bits.toNat / 65536, v4.bits.toNat % 65536].foldl
        (fun n s => 65536 * n + s) 0 = a.bits.toNat := by
      rw [← hvalue]
      rfl
    rw [ofSegments, hfold, BitVec.ofNat_toNat, BitVec.setWidth_eq]
  rw [read?, hcut]
  simp only [hleading, htrailing, Option.bind_eq_bind, Option.bind_some]
  rw [← hsegments]
  rfl

/-- An address is read back from its written form. -/
theorem read?_text (a : Ipv6) : read? a.text = some a := by
  unfold text
  cases hv4 : a.toIpv4? with
  | some v4 => exact read?_of_toIpv4? hv4
  | none =>
    have hall : ∀ n ∈ a.segments, n < 65536 := fun n hn => lt_of_mem_segments hn
    have hlength : a.segments.length = 8 := by simp [segments]
    have hself := ofSegments_segments a
    have htogether := take_append_replicate_append_drop a.segments
    rcases hrun : longestRun a.segments with ⟨start, length⟩
    rw [hrun] at htogether
    dsimp only at htogether
    generalize a.segments = ns at *
    simp only [hrun]
    show read? (if 2 ≤ length then
      joined (ns.take start) ++ ':' :: ':' :: joined (ns.drop (start + length)) else joined ns) =
        some a
    by_cases htwo : 2 ≤ length
    · -- Two colons stand for as many zeros as are missing.
      have htake : ∀ n ∈ ns.take start, n < 65536 := fun n hn => hall n (List.mem_of_mem_take hn)
      have hdrop : ∀ n ∈ ns.drop (start + length), n < 65536 :=
        fun n hn => hall n (List.mem_of_mem_drop hn)
      have hleading := (leading?_joined htake).1
      have htrailing := (leading?_joined hdrop).2
      have hsum := congrArg List.length htogether
      rw [List.length_append, List.length_append, List.length_replicate, hlength] at hsum
      have hzeros : 8 - (ns.take start).length - (ns.drop (start + length)).length = length := by
        omega
      rw [if_pos htwo, read?, cut_two]
      simp only [hleading, htrailing, Option.bind_eq_bind, Option.bind_some, hzeros, htogether,
        hself]
      rw [if_pos (by omega)]
    · -- All eight numbers are written, and no two colons follow each other.
      have htrailing := (leading?_joined hall).2
      have hcut : cut (joined ns) = none := by
        cases ns with
        | nil => cases hlength
        | cons n ns =>
          have h := cut_joined n ns []
          rwa [List.append_nil] at h
      rw [if_neg htwo, read?, hcut]
      simp only [htrailing, Option.bind_eq_bind, Option.bind_some, hlength, if_true, hself]

end Ipv6

end ColumnStore
