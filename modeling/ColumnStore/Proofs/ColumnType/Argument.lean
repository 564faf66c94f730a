import ColumnStore.Proofs.ColumnType.Names
import ColumnStore.Proofs.Text.Ending

/-!
# Arguments of Type Names

What stands in the brackets of a wrapper is a type name of its own. The wrapper is understood
exactly if that name is, whatever it says. An argument is read up to the bracket that closes it
just as it is read where the text ends, and nothing else starts with the word for the wrapper.

The alternatives that a type name can be are listed once, each with how its arguments are read,
so that what holds of all of them is shown one argument at a time. The hard one is an element of
a tuple: a word that is a type may be the name of an element that a type follows, and only what
stands after it tells.

## Main definitions

* `ColumnType.Call`, `ColumnType.call?`: The type names with arguments.

## Theorems

* `ColumnType.call_or_word_of_readerTo`: What a type name can be.
* `ColumnType.starts_of_readerTo`: What a type name starts with.
* `ColumnType.follows_readerTo`: A type name is read whether a bracket follows or nothing.
* `ColumnType.read_wrapper`: A wrapper is understood as its argument is.
-/

namespace ColumnStore

namespace ColumnType

open Text

open Text.Reader (Follows follows_while1 follows_mark follows_pure)

variable {ends : List Char → Prop} {n : Nat}

theorem follows_quotedReader (ends : List Char → Prop) (n : Nat) :
    Follows ends n quotedReader quotedReader := by
  have hraw : Follows ends n readQuoted readQuoted := by
    constructor
    · intro s body r h
      unfold readQuoted at h
      split at h
      · exact (suffix_of_readQuotedBody h).trans (List.suffix_cons _ _)
      · cases h
    · intro p q a b body _ _ hb _ h
      generalize hs : p ++ a = s at h
      unfold readQuoted at h
      split at h
      · next s =>
        rcases exists_eq_append_of_suffix (suffix_of_readQuotedBody h) with ⟨u, rfl⟩
        have hp : p = '\x27' :: u := List.append_cancel_right hs
        rw [hp]
        exact readQuotedBody_takes hb h
      · cases h
  exact hraw.map String.ofList

/-- An integer whose sign was read already. -/
def unsignedReader (lo hi : Int) (below : Bool) : Reader Int := fun s => do
  let (ds, r) ← Reader.while1 Char.isDigit s
  let n : Int := if below then -(Number.ofDigits ds : Int) else Number.ofDigits ds
  if below && lo = 0 then none
  else if lo ≤ n && n ≤ hi then pure (n, r)
  else none

theorem follows_unsignedReader (lo hi : Int) (below : Bool) (ends : List Char → Prop) (n : Nat) :
    Follows ends n (unsignedReader lo hi below) (unsignedReader lo hi below) := by
  let value (ds : List Char) : Int :=
    if below then -(Number.ofDigits ds : Int) else Number.ofDigits ds
  let second (ds : List Char) : Reader Int := fun r =>
    if below && lo = 0 then none
    else if lo ≤ value ds && value ds ≤ hi then some (value ds, r)
    else none
  have hsecond (ds : List Char) : Follows ends n (second ds) (second ds) := by
    dsimp only [second]
    split
    · exact Reader.follows_none ends n
    · split
      · exact follows_pure ends n _
      · exact Reader.follows_none ends n
  exact (follows_while1 (fun _ => True) n (by decide)).bind hsecond fun _ _ => trivial

theorem integerReader_of_head?_ne {lo hi : Int} {s : List Char} (h : s.head? ≠ some '-') :
    integerReader lo hi s = unsignedReader lo hi false s := by
  rw [integerReader]
  · rfl
  · rintro r rfl
    exact h rfl

theorem follows_integerReader (lo hi : Int) (ends : List Char → Prop) (n : Nat) :
    Follows ends n (integerReader lo hi) (integerReader lo hi) := by
  have hbelow := follows_unsignedReader lo hi true ends n
  have habove := follows_unsignedReader lo hi false ends n
  constructor
  · intro s x r h
    by_cases hsign : s.head? = some '-'
    · rcases List.head?_eq_some_iff.1 hsign with ⟨t, rfl⟩
      exact (hbelow.suffix h).trans (List.suffix_cons _ t)
    · rw [integerReader_of_head?_ne hsign] at h
      exact habove.suffix h
  · intro p q a b x hn ha hb hq h
    by_cases hsign : (p ++ a).head? = some '-'
    · rcases List.head?_eq_some_iff.1 hsign with ⟨t, ht⟩
      rw [ht] at h
      rcases exists_eq_append_of_suffix (hbelow.suffix h) with ⟨u, rfl⟩
      have hp : p = '-' :: u := List.append_cancel_right ht
      rw [hp, List.length_cons] at hn
      rw [hp]
      exact hbelow.takes (Nat.lt_of_succ_lt hn) ha hb hq h
    · have hsign' : (p ++ b).head? ≠ some '-' := by
        cases p with
        | nil => exact fun hb' => absurd (hb _ hb') (by decide)
        | cons c p => exact hsign
      rw [integerReader_of_head?_ne hsign] at h
      rw [integerReader_of_head?_ne hsign']
      exact habove.takes hn ha hb hq h

theorem follows_byteReader (ends : List Char → Prop) (n : Nat) :
    Follows ends n byteReader byteReader :=
  (follows_integerReader 0 255 ends n).map fun n => UInt8.ofNat n.toNat

theorem follows_memberReader (ends : List Char → Prop) (n : Nat) :
    Follows ends n memberReader memberReader := by
  have hpair := (follows_quotedReader (fun _ => True) n).pairOf (c := '=')
    (follows_integerReader (-32768) 32767 ends n) fun _ => trivial
  exact hpair.bind_pure fun p => (p.1, Int16.ofInt p.2)

theorem follows_zoneReader (n : Nat) : Follows Closed n zoneReader zoneReader := by
  refine Follows.optional ((follows_mark (fun _ => True) n ',').bind
    (fun _ => follows_quotedReader Closed n) fun _ _ => trivial) ?_
  intro s hs
  show (Reader.mark ',' s).bind _ = none
  rw [Reader.comma_eq_none hs, Option.bind_none]

theorem follows_placesReader (n : Nat) : Follows Closed n placesReader placesReader := by
  exact (follows_byteReader (fun _ => True) n).bind
    (fun p => (follows_zoneReader n).bind_pure fun zone => (p, zone)) fun _ _ => trivial

/-! ## Calls -/

/-- A type name with arguments. -/
structure Call where
  /-- What the arguments say. -/
  Arguments : Type
  /-- How they are read, where brackets nest less than so deep. -/
  arguments : Nat → Reader Arguments
  /-- The type that is meant. -/
  build : Arguments → ColumnType

/-- The type names with arguments that start with a word. -/
def call? (head : String) : Option Call :=
  match head with
  | "Nullable" => some ⟨ColumnType, readerTo, nullable⟩
  | "LowCardinality" => some ⟨ColumnType, readerTo, lowCardinality⟩
  | "Array" => some ⟨ColumnType, readerTo, array⟩
  | "Map" => some ⟨ColumnType × ColumnType,
      fun depth => Reader.pairOf (readerTo depth) comma (readerTo depth), fun p => map p.1 p.2⟩
  | "Tuple" => some ⟨List (Option String × ColumnType),
      fun depth => Reader.separated1 comma (elementReader (readerTo depth)), tuple⟩
  | "Enum8" => some ⟨List (String × Int16), fun _ => Reader.separated1 comma memberReader,
      enum .byte⟩
  | "Enum16" => some ⟨List (String × Int16), fun _ => Reader.separated1 comma memberReader,
      enum .short⟩
  | "Decimal32" => some ⟨UInt8, fun _ => byteReader, decimal 9⟩
  | "Decimal64" => some ⟨UInt8, fun _ => byteReader, decimal 18⟩
  | "Decimal128" => some ⟨UInt8, fun _ => byteReader, decimal 38⟩
  | "Decimal" => some ⟨UInt8 × UInt8, fun _ => Reader.pairOf byteReader comma byteReader,
      fun p => decimal p.1 p.2⟩
  | "DateTime64" => some ⟨UInt8 × Option String, fun _ => placesReader,
      fun p => dateTime64 p.1 p.2⟩
  | "DateTime" => some ⟨String, fun _ => quotedReader, fun zone => dateTime (some zone)⟩
  | "FixedString" => some ⟨Int, fun _ => integerReader 0 0xFFFFFFFFFFFFFFFF,
      fun n => fixedString (UInt64.ofNat n.toNat)⟩
  | _ => none

variable {α : Type} {head : String} {c : Call} {s r : List Char} {t : ColumnType}

theorem isWord_of_call? (h : call? head = some c) : isWord head.toList = true := by
  unfold call? at h
  split at h <;> first | rfl | cases h

theorem calls_of_call? (h : call? head = some c) : Calls head c.arguments c.build := by
  unfold call? at h
  split at h <;> cases h <;> exact fun _ _ => ⟨_, rfl⟩

/-- What is read as a type is a call or a word. -/
theorem call_or_word_of_readerTo {depth : Nat} (h : readerTo (depth + 1) s = some (t, r)) :
    (∃ head c x, call? head = some c ∧
        appliedReader head (c.arguments depth) s = some (x, r) ∧ t = c.build x) ∨
      simpleReader s = some (t, r) := by
  have hcall (head : String) {c : Call} (hc : call? head = some c)
      (h : (appliedReader head (c.arguments depth) s).map (fun p => (c.build p.1, p.2)) =
        some (t, r)) :
      ∃ head c x, call? head = some c ∧
        appliedReader head (c.arguments depth) s = some (x, r) ∧ t = c.build x := by
    rcases Option.map_eq_some_iff.1 h with ⟨⟨x, r'⟩, happlied, hpair⟩
    cases hpair
    exact ⟨head, c, x, hc, happlied, rfl⟩
  unfold readerTo at h
  simp only [Option.orElse_eq_some] at h
  rcases h with h | ⟨-, h | ⟨-, h | ⟨-, h | ⟨-, h | ⟨-, h | ⟨-, h | ⟨-, h | ⟨-, h | ⟨-, h | ⟨-,
    h | ⟨-, h | ⟨-, h | ⟨-, h | ⟨-, h⟩⟩⟩⟩⟩⟩⟩⟩⟩⟩⟩⟩⟩⟩
  · exact Or.inl (hcall "Nullable" rfl h)
  · exact Or.inl (hcall "LowCardinality" rfl h)
  · exact Or.inl (hcall "Array" rfl h)
  · exact Or.inl (hcall "Map" rfl h)
  · exact Or.inl (hcall "Tuple" rfl h)
  · exact Or.inl (hcall "Enum8" rfl h)
  · exact Or.inl (hcall "Enum16" rfl h)
  · exact Or.inl (hcall "Decimal32" rfl h)
  · exact Or.inl (hcall "Decimal64" rfl h)
  · exact Or.inl (hcall "Decimal128" rfl h)
  · exact Or.inl (hcall "Decimal" rfl h)
  · exact Or.inl (hcall "DateTime64" rfl h)
  · exact Or.inl (hcall "DateTime" rfl h)
  · exact Or.inl (hcall "FixedString" rfl h)
  · exact Or.inr h

theorem appliedReader_eq_some_iff {arguments : Reader α} {x : α} :
    appliedReader head arguments s = some (x, r) ↔
      ∃ u, s = head.toList ++ u ∧ Reader.enclosed '(' ')' arguments u = some (x, r) := by
  constructor
  · intro h
    rcases Option.bind_eq_some_iff.1 h with ⟨⟨⟨⟩, u⟩, hhead, henclosed⟩
    exact ⟨u, Reader.eq_append_of_exactly hhead, henclosed⟩
  · rintro ⟨u, rfl, henclosed⟩
    rw [appliedReader, Reader.exactly_append]
    exact henclosed

theorem simpleReader_eq_some_iff : simpleReader s = some (t, r) ↔
    ∃ w u, Reader.while1 isNameChar s = some (w, u) ∧ simple? (String.ofList w) = some t ∧
      r = Text.skipBlanks u := by
  constructor
  · intro h
    rcases Option.bind_eq_some_iff.1 h with ⟨⟨w, u⟩, hword, h⟩
    rcases Option.bind_eq_some_iff.1 h with ⟨t', ht, hpair⟩
    cases hpair
    exact ⟨w, u, hword, ht, rfl⟩
  · rintro ⟨w, u, hword, ht, rfl⟩
    rw [simpleReader, nameReader, hword]
    simp only [Option.bind_eq_bind, Option.bind_some, ht, Option.pure_def]

/-- A type name starts with a word. After it stands a bracket, or it is all of the name but for
    blanks. -/
theorem starts_of_readerTo {depth : Nat} (h : readerTo depth s = some (t, r)) :
    ∃ w u, s = w ++ u ∧ isWord w = true ∧ (∀ c ∈ u.head?, isNameChar c = false) ∧
      (u.head? = some '(' ∨ r = Text.skipBlanks u) := by
  cases depth with
  | zero => cases h
  | succ depth =>
    rcases call_or_word_of_readerTo h with ⟨head, c, x, hcall, happlied, rfl⟩ | hword
    · rcases appliedReader_eq_some_iff.1 happlied with ⟨u, rfl, henclosed⟩
      rcases Reader.enclosed_eq_some_iff.1 henclosed with ⟨v, -, rfl, -, -⟩
      refine ⟨head.toList, _, rfl, isWord_of_call? hcall, ?_, Or.inl rfl⟩
      intro c hc
      cases hc
      decide
    · rcases simpleReader_eq_some_iff.1 hword with ⟨w, u, hw, -, rfl⟩
      exact ⟨w, u, Reader.eq_append_of_while1 hw, isWord_iff.2 (Reader.of_while1 hw),
        Reader.head?_of_while1 hw, Or.inr rfl⟩

/-- A word ends before a bracket closes. -/
theorem exists_eq_word_append {p a w u : List Char} (ha : Closed a) (hw : isWord w = true)
    (h : p ++ a = w ++ u) : ∃ v, p = w ++ v ∧ u = v ++ a := by
  rcases List.append_eq_append_iff.1 h with ⟨v, rfl, rfl⟩ | ⟨v, rfl, rfl⟩
  · cases v with
    | nil => exact ⟨[], by simp, rfl⟩
    | cons c v =>
      have hc := (isWord_iff.1 hw).2 c (by simp)
      rw [ha c rfl] at hc
      exact absurd hc (by decide)
  · exact ⟨v, rfl, rfl⟩

/-- Where a comma parts or a bracket closes no type name begins. -/
theorem readerTo_eq_none (hs : Parted s) (depth : Nat) : readerTo depth s = none := by
  cases h : readerTo depth s with
  | none => rfl
  | some found =>
    rcases starts_of_readerTo h with ⟨w, u, rfl, hw, -, -⟩
    rcases isWord_iff.1 hw with ⟨hne, hall⟩
    cases w with
    | nil => exact absurd rfl hne
    | cons c w =>
      have hc := hall c List.mem_cons_self
      rcases hs c rfl with rfl | rfl <;> exact absurd hc (by decide)

/-! ## Arguments -/

/-- An element of a tuple is the same at another end, if its type is. -/
theorem follows_elementReader {depth n : Nat} (h : Follows Parted n (readerTo depth) (readerTo n)) :
    Follows Parted n (elementReader (readerTo depth)) (elementReader (readerTo n)) := by
  let named (type : Reader ColumnType) : Reader (Option String × ColumnType) := fun s =>
    (nameReader s).bind fun p => (Reader.while1 Text.isBlank p.2).bind fun p' =>
      (type p'.2).bind fun p'' => some ((some (String.ofList p.1), p''.1), p''.2)
  have hnamed : Follows Parted n (named (readerTo depth)) (named (readerTo n)) :=
    (follows_while1 (fun _ => True) n (by decide)).bind (fun w =>
      (follows_while1 (fun _ => True) n (by decide)).bind
        (fun _ => h.bind_pure fun t => (some (String.ofList w), t)) fun _ _ => trivial)
      fun _ _ => trivial
  have halone := h.map (fun t => ((none : Option String), t))
  constructor
  · intro s e r hs
    rcases (Option.orElse_eq_some _ _ _).1 hs with hs | ⟨-, hs⟩
    · exact hnamed.suffix hs
    · exact halone.suffix hs
  · intro p q a b e hn ha hb hq hs
    refine (Option.orElse_eq_some _ _ _).2 ?_
    rcases (Option.orElse_eq_some _ _ _).1 hs with hs | ⟨-, hs⟩
    · exact Or.inl (hnamed.takes hn ha hb hq hs)
    · refine Or.inr ⟨?_, halone.takes hn ha hb hq hs⟩
      rcases Option.map_eq_some_iff.1 hs with ⟨⟨t, r⟩, htype, hpair⟩
      obtain ⟨-, rfl⟩ := Prod.mk.inj hpair
      rcases starts_of_readerTo htype with ⟨w, u, happend, hw, hu, hstart⟩
      rcases exists_eq_word_append ha hw happend with ⟨v, rfl, rfl⟩
      show named (readerTo n) (w ++ v ++ b) = none
      have hname : nameReader (w ++ (v ++ b)) = some (w, v ++ b) := by
        refine Reader.while1_append (isWord_iff.1 hw).1 (isWord_iff.1 hw).2 ?_
        intro c hc
        cases v with
        | nil =>
          rw [hb c hc]
          decide
        | cons d v => exact hu c hc
      dsimp only [named]
      rw [List.append_assoc, hname, Option.bind_some]
      -- A type after the name of an element would follow blanks.
      cases hblank : Reader.while1 Text.isBlank (v ++ b) with
      | none => rfl
      | some found =>
        obtain ⟨gap, z⟩ := found
        have hz : z = Text.skipBlanks (v ++ b) := Reader.eq_dropWhile_of_while1 hblank
        rcases hstart with hbracket | hrest
        · cases v with
          | nil => exact absurd (ha _ hbracket) (by decide)
          | cons d v =>
            cases hbracket
            cases hblank
        · rw [Text.skipBlanks_append_of_closed ha] at hrest
          have hnext := hq.skipBlanks_append ha hb
          rw [List.append_cancel_right hrest, ← Text.skipBlanks_append_of_closed hb,
            Text.skipBlanks_skipBlanks, ← hz] at hnext
          rw [Option.bind_some, readerTo_eq_none hnext, Option.bind_none]

/-- The arguments of a call are the same at another end, if types are. -/
theorem follows_arguments (hcall : call? head = some c) {depth : Nat}
    (htype : ∀ n, Follows Parted n (readerTo depth) (readerTo n)) (n : Nat) :
    Follows Closed n (c.arguments depth) (c.arguments n) := by
  have hclosed := (htype n).mono fun _ => Closed.parted
  have hcomma {s r : List Char} (h : comma s = some ((), r)) : Parted (Text.skipBlanks s) :=
    Reader.parted_of_comma h
  unfold call? at hcall
  split at hcall <;> cases hcall
  · exact hclosed
  · exact hclosed
  · exact hclosed
  · exact (htype n).pairOf hclosed hcomma
  · exact (follows_elementReader (htype n)).separated1
  · exact (follows_memberReader Parted n).separated1
  · exact (follows_memberReader Parted n).separated1
  · exact follows_byteReader Closed n
  · exact follows_byteReader Closed n
  · exact follows_byteReader Closed n
  · exact (follows_byteReader Parted n).pairOf (follows_byteReader Closed n) hcomma
  · exact follows_placesReader n
  · exact follows_quotedReader Closed n
  · exact follows_integerReader _ _ Closed n

/-- A call is read at another end, one level of brackets deeper than its arguments. -/
theorem readerTo_of_call? (hcall : call? head = some c) {depth n : Nat}
    (hfollows : Follows Closed n (c.arguments depth) (c.arguments n)) {p q a b : List Char}
    {x : c.Arguments} (hn : p.length < n + 1) (ha : Closed a) (hb : Closed b)
    (h : appliedReader head (c.arguments depth) (p ++ a) = some (x, q ++ a)) :
    readerTo (n + 1) (p ++ b) = some (c.build x, q ++ b) := by
  rcases appliedReader_eq_some_iff.1 h with ⟨u, happend, henclosed⟩
  have hfollows := hfollows.enclosed fun _ => True
  rcases exists_eq_append_of_suffix (hfollows.suffix henclosed) with ⟨v, rfl⟩
  rw [← List.append_assoc] at happend
  have hp : p = head.toList ++ v := List.append_cancel_right happend
  rw [hp, List.length_append] at hn
  have henclosed' := hfollows.takes (by omega) ha hb trivial henclosed
  have happlied : appliedReader head (c.arguments n) (head.toList ++ (v ++ b)) =
      some (x, q ++ b) := appliedReader_eq_some_iff.2 ⟨v ++ b, rfl, henclosed'⟩
  rcases Reader.enclosed_eq_some_iff.1 henclosed' with ⟨z, -, hz, -, -⟩
  rcases calls_of_call? hcall n z with ⟨others, hothers⟩
  rw [hz] at happlied
  rw [hp, List.append_assoc, hz, hothers, happlied]
  rfl

/-- A word is read at another end, unless more than blanks stands between the two. -/
theorem readerTo_of_simpleReader {p q a b : List Char} (ha : Closed a) (hb : Closed b)
    (hq : Parted (Text.skipBlanks (q ++ a))) (h : simpleReader (p ++ a) = some (t, q ++ a))
    (n : Nat) : readerTo (n + 1) (p ++ b) = some (t, q ++ b) := by
  rcases simpleReader_eq_some_iff.1 h with ⟨w, u, hw, ht, hrest⟩
  have hword := isWord_iff.2 (Reader.of_while1 hw)
  rcases exists_eq_word_append ha hword (Reader.eq_append_of_while1 hw) with ⟨v, rfl, rfl⟩
  have hstops : ∀ c ∈ (v ++ b).head?, isNameChar c = false ∧ c ≠ '(' := by
    intro c hc
    cases v with
    | nil =>
      rw [hb c hc]
      decide
    | cons d v =>
      refine ⟨Reader.head?_of_while1 hw c hc, ?_⟩
      rintro rfl
      cases hc
      rw [hrest, Text.skipBlanks_skipBlanks] at hq
      exact absurd (hq '(' rfl) (by decide)
  rw [Text.skipBlanks_append_of_closed ha] at hrest
  rw [List.append_assoc, readerTo_of_word hword ht hstops n,
    Text.skipBlanks_append_of_closed hb, List.append_cancel_right hrest]

/-- A type name is read at another end, by a reader that goes as deep as it is long, if a comma
    parts or a bracket closes what is left. -/
theorem follows_readerTo (depth n : Nat) : Follows Parted n (readerTo depth) (readerTo n) := by
  induction depth generalizing n with
  | zero => exact ⟨nofun, nofun⟩
  | succ depth ih =>
    constructor
    · intro s t r h
      rcases call_or_word_of_readerTo h with ⟨head, c, x, hcall, happlied, rfl⟩ | hword
      · rcases appliedReader_eq_some_iff.1 happlied with ⟨u, rfl, henclosed⟩
        have hsuffix := ((follows_arguments hcall ih n).enclosed Parted).suffix henclosed
        exact hsuffix.trans (List.suffix_append _ u)
      · rcases simpleReader_eq_some_iff.1 hword with ⟨w, u, hw, -, rfl⟩
        have hskip : Text.skipBlanks u <:+ u := List.dropWhile_suffix Text.isBlank
        rw [Reader.eq_append_of_while1 hw]
        exact hskip.trans (List.suffix_append w u)
    · intro p q a b t hn ha hb hq h
      cases n with
      | zero => cases hn
      | succ n =>
        rcases call_or_word_of_readerTo h with ⟨head, c, x, hcall, happlied, rfl⟩ | hword
        · exact readerTo_of_call? hcall (follows_arguments hcall ih n) hn ha hb happlied
        · exact readerTo_of_simpleReader ha hb hq hword n

/-! ## Wrappers -/

theorem read_eq_ok_iff : read s = .ok t ↔
    ∃ r, reader (Text.skipBlanks s) = some (t, r) ∧ Text.skipBlanks r = [] := by
  unfold read Reader.spaced
  cases hread : reader (Text.skipBlanks s) with
  | none => exact iff_of_false nofun nofun
  | some found =>
    obtain ⟨u, r⟩ := found
    cases hskip : Text.skipBlanks r with
    | nil =>
      simp only [Option.bind_eq_bind, Option.bind_some, Option.pure_def, hskip]
      constructor
      · intro h
        cases h
        exact ⟨r, rfl, hskip⟩
      · rintro ⟨r', h, -⟩
        cases h
        rfl
    | cons d r' =>
      simp only [Option.bind_eq_bind, Option.bind_some, Option.pure_def, hskip]
      refine iff_of_false nofun ?_
      rintro ⟨r'', h, hskip'⟩
      cases h
      rw [hskip] at hskip'
      cases hskip'

/-- A bracket ends one word and no other. -/
theorem eq_of_word_append {v w p q : List Char} (hv : isWord v = true) (hw : isWord w = true)
    (h : v ++ '(' :: p = w ++ '(' :: q) : v = w := by
  have hbracket (r : List Char) : ∀ c ∈ ('(' :: r).head?, isNameChar c = false := by
    intro c hc
    cases hc
    decide
  have hv' := (Text.span_append (isWord_iff.1 hv).2 (hbracket p)).1
  rwa [h, (Text.span_append (isWord_iff.1 hw).2 (hbracket q)).1, eq_comm] at hv'

/-- A call of a word that means no type by itself is read in no other way. -/
theorem readerTo_eq_of_call? (hcall : call? head = some c) (hsimple : simple? head = none)
    (depth : Nat) (s : List Char) :
    readerTo (depth + 1) (head.toList ++ '(' :: s) =
      (appliedReader head (c.arguments depth) (head.toList ++ '(' :: s)).map
        fun p => (c.build p.1, p.2) := by
  have hword := isWord_of_call? hcall
  cases happlied : appliedReader head (c.arguments depth) (head.toList ++ '(' :: s) with
  | some found =>
    rcases calls_of_call? hcall depth s with ⟨others, hothers⟩
    rw [hothers, happlied]
    rfl
  | none =>
    cases h : readerTo (depth + 1) (head.toList ++ '(' :: s) with
    | none => rfl
    | some found =>
      exfalso
      rcases call_or_word_of_readerTo h with ⟨head', c', x, hcall', happlied', -⟩ | hread
      · rcases appliedReader_eq_some_iff.1 happlied' with ⟨u, happend, henclosed⟩
        rcases Reader.enclosed_eq_some_iff.1 henclosed with ⟨z, -, rfl, -, -⟩
        have hheads : head' = head :=
          String.toList_inj.1 (eq_of_word_append (isWord_of_call? hcall') hword happend.symm)
        subst hheads
        cases hcall.symm.trans hcall'
        rw [happlied] at happlied'
        cases happlied'
      · rcases simpleReader_eq_some_iff.1 hread with ⟨w, u, hw, ht, -⟩
        have hrun : Reader.while1 isNameChar (head.toList ++ '(' :: s) =
            some (head.toList, '(' :: s) := by
          refine Reader.while1_append (isWord_iff.1 hword).1 (isWord_iff.1 hword).2 ?_
          intro c hc
          cases hc
          decide
        cases hrun.symm.trans hw
        rw [String.ofList_toList, hsimple] at ht
        cases ht

/-- A wrapper is understood exactly if what stands in its brackets is understood. -/
theorem read_wrapper (head : String) {f : ColumnType → ColumnType}
    (hcall : call? head = some ⟨ColumnType, readerTo, f⟩) (hsimple : simple? head = none)
    (s : List Char) (t : ColumnType) :
    read (applied head.toList [s]) = .ok t ↔ ∃ u, read s = .ok u ∧ t = f u := by
  have hword := isWord_of_call? hcall
  have hname : applied head.toList [s] = head.toList ++ '(' :: (s ++ [')']) := by
    rw [applied, commaSeparated_singleton]
  have hclosing : Closed [')'] := closed_cons []
  have hskip : Text.skipBlanks (s ++ [')']) = Text.skipBlanks s ++ [')'] :=
    Text.skipBlanks_append_of_closed hclosing s
  have hlength := Text.length_skipBlanks_le s
  rw [read_eq_ok_iff, hname, skipBlanks_word hword, reader, readerTo_eq_of_call? hcall hsimple]
  generalize hdepth : (head.toList ++ '(' :: (s ++ [')'])).length = depth
  have hless : (Text.skipBlanks s).length < depth := by
    rw [← hdepth]
    simp only [List.length_append, List.length_cons]
    omega
  constructor
  · rintro ⟨r, h, hr⟩
    rcases Option.map_eq_some_iff.1 h with ⟨⟨u, r'⟩, happlied, hpair⟩
    obtain rfl : f u = t := congrArg Prod.fst hpair
    obtain rfl : r = r' := (congrArg Prod.snd hpair).symm
    rcases appliedReader_eq_some_iff.1 happlied with ⟨v, happend, henclosed⟩
    rcases Reader.enclosed_eq_some_iff.1 henclosed with ⟨z, z', rfl, hread, hclosed⟩
    cases List.append_cancel_left happend
    rw [hskip] at hread
    have hsuffix := (follows_readerTo depth depth).suffix hread
    have hz' : ')' :: r <:+ z' := by
      rw [← hclosed]
      exact List.dropWhile_suffix Text.isBlank
    -- The last bracket of the text is the one that closes.
    have hends {r : List Char} (hr : r ≠ []) (h : r <:+ Text.skipBlanks s ++ [')']) :
        ∃ q, r = q ++ [')'] := by
      rcases List.suffix_concat_iff.1 (by simpa using h) with rfl | ⟨q, rfl, -⟩
      · exact absurd rfl hr
      · exact ⟨q, by simp⟩
    have hnil : r = [] := by
      by_contra hne
      rcases hends hne ((List.suffix_cons _ r).trans (hz'.trans hsuffix)) with ⟨q, rfl⟩
      rw [Text.skipBlanks_append_of_closed hclosing] at hr
      exact absurd (List.append_eq_nil_iff.1 hr).2 (List.cons_ne_nil _ _)
    have hne : z' ≠ [] := by
      rintro rfl
      cases List.suffix_nil.1 hz'
    rcases hends hne hsuffix with ⟨q, rfl⟩
    have hparted : Parted (Text.skipBlanks (q ++ [')'])) := by
      rw [hclosed]
      exact (closed_cons r).parted
    have hread' := (follows_readerTo depth _).takes (Nat.lt_succ_self _) hclosing closed_nil
      hparted hread
    rw [List.append_nil, List.append_nil] at hread'
    rw [Text.skipBlanks_append_of_closed hclosing, hnil] at hclosed
    have hq : Text.skipBlanks q = [] := List.append_cancel_right hclosed
    exact ⟨u, read_eq_ok_iff.2 ⟨q, hread', hq⟩, rfl⟩
  · rintro ⟨u, hu, rfl⟩
    rcases read_eq_ok_iff.1 hu with ⟨r, h, hr⟩
    have hparted : Parted (Text.skipBlanks (r ++ [])) := by
      rw [List.append_nil, hr]
      exact closed_nil.parted
    have hread := (follows_readerTo _ depth).takes hless closed_nil hclosing hparted
      (p := Text.skipBlanks s) (q := r) (x := u) (by rwa [List.append_nil, List.append_nil])
    refine ⟨[], ?_, rfl⟩
    have happlied : appliedReader head (readerTo depth) (head.toList ++ '(' :: (s ++ [')'])) =
        some (u, []) := by
      refine appliedReader_eq_some_iff.2 ⟨_, rfl, Reader.enclosed_eq_some_iff.2
        ⟨_, r ++ [')'], rfl, ?_, ?_⟩⟩
      · rw [hskip, hread]
      · rw [Text.skipBlanks_append_of_closed hclosing, hr, List.nil_append]
    rw [happlied]
    rfl

end ColumnType

end ColumnStore
