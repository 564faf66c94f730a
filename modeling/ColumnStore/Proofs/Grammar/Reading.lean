import ColumnStore.Proofs.Grammar.Reader

/-!
# What the Reader Reads

The reader finds a formula in some tokens exactly if the formula follows the
grammar and these are its tokens. So no text has two readings.

That the reader goes no further than the formula needs a look at what follows:
nothing there may be an operator of the level, which is `Stops`. Operators group
to the left and are gathered in a loop, so that a formula of a level with such
operators is read by the loop of a longer one too. `ReadsOnto` says this: the
reader comes to the loop with the formula in hand, whatever the loop does next.

## Main definitions

* `Leads`: A token that a formula of a level starts with.
* `Reads`: The reader reads a formula at the front of tokens.
* `ReadsOnto`: The reader goes on from a formula with its loop.
* `Readable`: The reader reads a formula in the way of its level.
* `Sound`: What the parts of the reader read follows the grammar.

## Theorems

* `leads_of_conforms`: A formula starts with a token of its level.
* `readable_of_conforms`: A formula that follows the grammar is read.
* `sound`: What is read follows the grammar.
* `readTokens?_eq_some_iff`: The reader decides the grammar.
-/

namespace ColumnStore

namespace Grammar

open Formula

/-! ## First tokens -/

/-- A token that a formula of a level may start with. -/
def Leads (level : Nat) : Token → Prop
  | .verbatim _ => level = 0
  | .word w => w = "NOT".toList → level < 4
  | .mark c => c = '(' ∨ c = '[' ∨ (c = '-' ∧ level < 8)
  | _ => True

theorem Leads.mono {j k : Nat} {t : Token} (hjk : j ≤ k) (h : Leads k t) : Leads j t := by
  cases t with
  | verbatim s =>
      unfold Leads at h ⊢
      omega
  | word w => exact fun hw => Nat.lt_of_le_of_lt hjk (h hw)
  | mark c =>
      rcases h with h | h | ⟨h, hk⟩
      · exact Or.inl h
      · exact Or.inr (Or.inl h)
      · exact Or.inr (Or.inr ⟨h, Nat.lt_of_le_of_lt hjk hk⟩)
  | _ => trivial

/-- A mark that neither opens a bracket nor is a minus starts no formula. -/
theorem Leads.ne_mark {k : Nat} {t : Token} (h : Leads k t) {c : Char}
    (hc : c ≠ '(' ∧ c ≠ '[' ∧ c ≠ '-') : t ≠ .mark c := by
  rintro rfl
  rcases h with h | h | ⟨h, -⟩
  · exact hc.1 h
  · exact hc.2.1 h
  · exact hc.2.2 h

theorem eq_of_levelSign? {k : Nat} {op : UnaryOp} (h : levelSign? k = some op) :
    (k = 3 ∧ op = .not) ∨ (k = 7 ∧ op = .neg) := by
  match k with
  | 3 | 7 =>
    cases h
    decide
  | 0 | 1 | 2 | 4 | 5 | 6 | n + 8 => cases h

/-- The operator before the operands of a level starts no formula of a later one. -/
theorem Leads.ne_unaryToken {k : Nat} {t : Token} {op : UnaryOp} (hop : levelSign? k = some op)
    (h : Leads (k + 1) t) : t ≠ unaryToken op := by
  rintro rfl
  rcases eq_of_levelSign? hop with ⟨rfl, rfl⟩ | ⟨rfl, rfl⟩
  · exact absurd (h rfl) (by decide)
  · rcases h with h | h | ⟨-, h⟩
    · exact absurd h (by decide)
    · exact absurd h (by decide)
    · exact absurd h (by decide)

/-- A formula that follows the grammar starts with a token of its level. -/
theorem leads_of_conforms {k : Nat} {x : Formula} (h : Conforms k x) :
    ∃ t ts, x.tokens = t :: ts ∧ Leads k t := by
  induction h with
  | raw s => exact ⟨.verbatim s, [], rfl, rfl⟩
  | next _ _ ih =>
      rcases ih with ⟨t, ts, htokens, ht⟩
      exact ⟨t, ts, htokens, ht.mono (Nat.le_succ _)⟩
  | @unary k op x hop hx ih =>
      refine ⟨unaryToken op, x.tokens, rfl, ?_⟩
      rcases eq_of_levelSign? hop with ⟨rfl, rfl⟩ | ⟨rfl, rfl⟩
      · exact fun _ => by decide
      · exact Or.inr (Or.inr ⟨rfl, by decide⟩)
  | binary _ _ _ _ ihl _ =>
      rcases ihl with ⟨t, ts, htokens, ht⟩
      exact ⟨t, _, by rw [tokens, htokens, List.cons_append], ht⟩
  | range _ _ _ ihx _ _ =>
      rcases ihx with ⟨t, ts, htokens, ht⟩
      exact ⟨t, _, by rw [tokens, htokens, List.cons_append], ht⟩
  | word hw =>
      -- `NOT` is a word of the language, and a constant is none.
      refine ⟨_, [], rfl, fun hnot => absurd ?_ hw⟩
      rw [hnot]
      decide
  | text s => exact ⟨.quoted s, [], rfl, trivial⟩
  | name s => exact ⟨.named s, [], rfl, trivial⟩
  | call f _ _ => exact ⟨.function f, _, rfl, trivial⟩
  | array _ _ => exact ⟨.mark '[', _, rfl, Or.inr (Or.inl rfl)⟩
  | list _ _ => exact ⟨.mark '(', _, rfl, Or.inl rfl⟩

/-! ## Formulas are read -/

/-- The reader reads a formula wherever its level stops after it. The fuel that it
    needs at a level is what is left of that for the whole text. -/
def Reads (k : Nat) (x : Formula) : Prop :=
  ∀ n rest, Stops k rest → 16 * (x.tokens ++ rest).length + 16 ≤ n + k →
    readLevel n k (x.tokens ++ rest) = some (x, rest)

/-- The reader comes to the loop of a level with a formula in hand. -/
def ReadsOnto (k : Nat) (x : Formula) : Prop :=
  ∀ n rest result, Stops (k + 1) rest →
    (∀ m, 16 * rest.length + 1 ≤ m → readChain m k x rest = some result) →
    16 * (x.tokens ++ rest).length + 16 ≤ n + k → readLevel n k (x.tokens ++ rest) = some result

/-- A level whose operators stand between two operands. -/
def Chains (k : Nat) : Prop :=
  1 ≤ k ∧ k < 8 ∧ levelSign? k = none

theorem chains_of_mem {k : Nat} {op : BinaryOp} (h : op ∈ levelOperators k) : Chains k := by
  match k with
  | 1 | 2 | 4 | 5 | 6 => exact ⟨by decide, by decide, rfl⟩
  | 0 | 3 | n + 7 => simp [levelOperators] at h

/-- A level that stops leaves the loop at once. -/
theorem readChain_of_stops {n k : Nat} (hn : 1 ≤ n) {rest : List Token} (h : Stops k rest)
    (x : Formula) : readChain n k x rest = some (x, rest) := by
  rcases Nat.exists_eq_add_of_le' hn with ⟨n, rfl⟩
  rw [readChain, h k (Nat.le_refl k)]

theorem ReadsOnto.reads {k : Nat} {x : Formula} (h : ReadsOnto k x) : Reads k x := by
  intro n rest hstops hn
  refine h n rest (x, rest) (hstops.mono (Nat.le_succ k)) (fun m hm => ?_) hn
  exact readChain_of_stops (by omega) hstops x

/-- A level with a loop reads an operand of the next level first. -/
theorem readLevel_of_chains {k : Nat} (h : Chains k) (n : Nat) (ts : List Token) :
    readLevel (n + 1) k ts
      = (readLevel n (k + 1) ts).bind fun (x, r) => readChain n k x r := by
  rcases h with ⟨hpos, hlt, hsign⟩
  rw [readLevel, if_neg (by omega), if_neg (by omega), hsign]

theorem readLevel_zero {t : Token} (h : Leads 1 t) (n : Nat) (ts : List Token) :
    readLevel (n + 1) 0 (t :: ts) = readLevel n 1 (t :: ts) := by
  have hfront : verbatim? (t :: ts) = none := by
    cases t with
    | verbatim s => cases h
    | _ => rfl
  rw [readLevel, if_pos rfl, hfront]

/-- A level with an operator before its operands goes on if it is not there. -/
theorem readLevel_of_sign {k : Nat} {op : UnaryOp} (hop : levelSign? k = some op) {t : Token}
    (h : Leads (k + 1) t) (n : Nat) (ts : List Token) :
    readLevel (n + 1) k (t :: ts) = readLevel n (k + 1) (t :: ts) := by
  have hk := eq_of_levelSign? hop
  rw [readLevel, if_neg (by omega), if_neg (by omega), hop]
  simp only
  rw [strip?_singleton_of_ne (h.ne_unaryToken hop)]

/-- What the loop does with an operator that is no range. -/
theorem readChain_binary {n k : Nat} {op : BinaryOp} {ts r r' : List Token} {x y : Formula}
    (hop : operator? k ts = some (op, r)) (hne : op ≠ .between)
    (hy : readLevel n (k + 1) r = some (y, r')) :
    readChain (n + 1) k x ts = readChain n k (.binary op x y) r' := by
  rw [readChain, hop]
  simp only
  rw [if_neg hne, hy, Option.bind_some]

/-- What the loop does with a range. -/
theorem readChain_range {n k : Nat} {ts r r' r'' : List Token} {x lo hi : Formula}
    (hop : operator? k ts = some (.between, r))
    (hlo : readLevel n (k + 1) r = some (lo, symbolTokens .and ++ r'))
    (hhi : readLevel n (k + 1) r' = some (hi, r'')) :
    readChain (n + 1) k x ts = readChain n k (.range x lo hi) r'' := by
  rw [readChain, hop]
  simp only
  rw [if_pos trivial, hlo, Option.bind_some]
  simp only
  rw [strip?_append, Option.bind_some, hhi, Option.bind_some]

/-- An operator of a level is found before a formula. -/
theorem operator?_before {k j : Nat} {op : BinaryOp} (hop : op ∈ levelOperators k) {x : Formula}
    (hx : Conforms j x) (rest : List Token) :
    operator? k (symbolTokens op ++ (x.tokens ++ rest)) = some (op, x.tokens ++ rest) := by
  rcases leads_of_conforms hx with ⟨t, ts, htokens, ht⟩
  rw [htokens, List.cons_append]
  exact operator?_symbolTokens hop (ht.ne_mark (by decide)) _

theorem length_symbolTokens_pos (op : BinaryOp) : 1 ≤ (symbolTokens op).length := by
  cases op <;> decide

/-- An operator after a formula is read onto it, with the operand to its right. -/
theorem readsOnto_binary {k : Nat} {op : BinaryOp} {l r : Formula} (hop : op ∈ levelOperators k)
    (hne : op ≠ .between) (hr : Conforms (k + 1) r) (hl : ReadsOnto k l)
    (hread : Reads (k + 1) r) : ReadsOnto k (.binary op l r) := by
  intro n rest result hstops hchain hn
  rw [tokens, List.append_assoc, List.append_assoc] at hn ⊢
  -- The left side is read up to the operator. The loop then has the fuel for it, as it
  -- has given up a token at least.
  refine hl n _ result (stops_symbolTokens hop _) (fun m hm => ?_) hn
  have hpos := length_symbolTokens_pos op
  simp only [List.length_append] at hm
  rcases Nat.exists_eq_add_of_le' (Nat.le_trans (Nat.le_add_left 1 _) hm) with ⟨m, rfl⟩
  have hright := hread m rest hstops (by rw [List.length_append]; omega)
  rw [readChain_binary (operator?_before hop hr rest) hne hright]
  exact hchain m (by omega)

/-- A range is read onto its left side, with both bounds. -/
theorem readsOnto_range {x lo hi : Formula} (hlo : Conforms 5 lo) (hx : ReadsOnto 4 x)
    (hreadlo : Reads 5 lo) (hreadhi : Reads 5 hi) : ReadsOnto 4 (.range x lo hi) := by
  intro n rest result hstops hchain hn
  simp only [tokens, List.append_assoc] at hn ⊢
  refine hx n _ result (stops_symbolTokens (by decide) _) (fun m hm => ?_) hn
  have hpos := length_symbolTokens_pos .between
  have hand := length_symbolTokens_pos .and
  simp only [List.length_append] at hm
  rcases Nat.exists_eq_add_of_le' (Nat.le_trans (Nat.le_add_left 1 _) hm) with ⟨m, rfl⟩
  -- The lower bound stops before `AND`, which no comparison is.
  have hbefore : Stops 5 (symbolTokens .and ++ (hi.tokens ++ rest)) :=
    (stops_symbolTokens (show .and ∈ levelOperators 2 by decide) _).mono (by decide)
  have hlower := hreadlo m _ hbefore (by simp only [List.length_append]; omega)
  have hupper := hreadhi m rest hstops (by rw [List.length_append]; omega)
  rw [readChain_range (operator?_before (by decide) hlo _) hlower hupper]
  exact hchain m (by omega)

/-! ### Items -/

theorem commaTokens_one (x : Formula) : commaTokens (listTokens [x]) = x.tokens := by
  simp [listTokens, commaTokens, List.intercalate]

theorem commaTokens_more (x y : Formula) (ys : List Formula) :
    commaTokens (listTokens (x :: y :: ys))
      = x.tokens ++ .mark ',' :: commaTokens (listTokens (y :: ys)) :=
  commaTokens_cons_cons _ _ _

theorem readSomeItems_of_reads {c : Char} (hc : c = ')' ∨ c = ']') {x : Formula}
    {xs : List Formula} (h : ∀ y ∈ x :: xs, Reads 0 y) (n : Nat) (rest : List Token)
    (hn : 16 * (commaTokens (listTokens (x :: xs)) ++ .mark c :: rest).length + 17 ≤ n) :
    readSomeItems n c (commaTokens (listTokens (x :: xs)) ++ .mark c :: rest)
      = some (x :: xs, rest) := by
  rcases Nat.exists_eq_add_of_le' (Nat.le_trans (Nat.le_add_left 1 _) hn) with ⟨n, rfl⟩
  have hx := h x List.mem_cons_self
  -- Induction on the items after the first. An item stops at the mark after it, which
  -- is a comma or the closing one.
  induction xs generalizing x n with
  | nil =>
      have hcomma : Token.mark c ≠ .mark ',' := by
        rcases hc with rfl | rfl <;> decide
      rw [commaTokens_one] at hn ⊢
      have hitem := hx n (.mark c :: rest) (stops_mark (Or.inr hc) rest) (by omega)
      rw [readSomeItems, hitem, Option.bind_some]
      simp only
      rw [strip?_singleton_of_ne hcomma]
      simp only
      rw [strip?_singleton, Option.map_some]
  | cons y ys ih =>
      rw [commaTokens_more, List.append_assoc, List.cons_append] at hn ⊢
      have hitem := hx n (.mark ',' :: (commaTokens (listTokens (y :: ys)) ++ .mark c :: rest))
        (stops_mark (Or.inl rfl) _) (by omega)
      simp only [List.length_append, List.length_cons] at hn
      obtain ⟨n, rfl⟩ : ∃ m, n = m + 1 := ⟨n - 1, by omega⟩
      have hitems := ih (fun z hz => h z (List.mem_cons_of_mem x hz)) n
        (by simp only [List.length_append, List.length_cons]; omega)
        (h y (List.mem_cons_of_mem x List.mem_cons_self))
      rw [readSomeItems, hitem, Option.bind_some]
      simp only
      rw [strip?_singleton]
      simp only
      rw [hitems, Option.map_some]

theorem readItems_of_reads {c : Char} (hc : c = ')' ∨ c = ']') {xs : List Formula}
    (hconforms : ∀ x ∈ xs, Conforms 0 x) (h : ∀ x ∈ xs, Reads 0 x) (n : Nat) (rest : List Token)
    (hn : 16 * (commaTokens (listTokens xs) ++ .mark c :: rest).length + 18 ≤ n) :
    readItems n c (commaTokens (listTokens xs) ++ .mark c :: rest) = some (xs, rest) := by
  rcases Nat.exists_eq_add_of_le' (Nat.le_trans (Nat.le_add_left 1 _) hn) with ⟨n, rfl⟩
  rw [readItems]
  cases xs with
  | nil =>
      have hnone : commaTokens (listTokens []) = [] := rfl
      rw [hnone, List.nil_append, strip?_singleton]
  | cons x xs =>
      have hitems := readSomeItems_of_reads hc h n rest (by omega)
      -- The first token is one of an item and not the closing mark.
      rcases leads_of_conforms (hconforms x List.mem_cons_self) with ⟨t, ts, htokens, ht⟩
      have hne : t ≠ .mark c := by
        rcases hc with rfl | rfl
        · exact ht.ne_mark (by decide)
        · exact ht.ne_mark (by decide)
      obtain ⟨us, hfront⟩ : ∃ us, commaTokens (listTokens (x :: xs)) = t :: us := by
        cases xs with
        | nil => exact ⟨ts, by rw [commaTokens_one, htokens]⟩
        | cons y ys =>
            rw [commaTokens_more, htokens, List.cons_append]
            exact ⟨_, rfl⟩
      rw [hfront, List.cons_append] at hitems ⊢
      rw [strip?_singleton_of_ne hne, hitems]

/-- Items between two marks, after the opening one. -/
theorem readItems_between {c : Char} (hc : c = ')' ∨ c = ']') {xs : List Formula}
    (hconforms : ∀ x ∈ xs, Conforms 0 x) (h : ∀ x ∈ xs, Reads 0 x) {n : Nat} {rest : List Token}
    (hn : 16 * (commaTokens (listTokens xs) ++ .mark c :: rest).length + 18 ≤ n) :
    readItems n c (commaTokens (listTokens xs) ++ [.mark c] ++ rest) = some (xs, rest) := by
  rw [List.append_assoc, List.singleton_append]
  exact readItems_of_reads hc hconforms h n rest hn

/-! ### All formulas -/

/-- The reader reads a formula of a level, by way of the loop if the level has one. -/
def Readable (k : Nat) (x : Formula) : Prop :=
  (Chains k → ReadsOnto k x) ∧ (¬ Chains k → Reads k x)

theorem Readable.reads {k : Nat} {x : Formula} (h : Readable k x) : Reads k x := by
  by_cases hchains : Chains k
  · exact (h.1 hchains).reads
  · exact h.2 hchains

/-- The last level reads what no operator can take apart. -/
theorem readable_of_readOperand {x : Formula}
    (h : ∀ n rest, 16 * (x.tokens ++ rest).length + 7 ≤ n + 1 →
      readOperand (n + 1) (x.tokens ++ rest) = some (x, rest)) : Readable 8 x := by
  refine ⟨fun hchains => absurd hchains.2.1 (by decide), fun _ n rest _ hn => ?_⟩
  obtain ⟨n, rfl⟩ : ∃ m, n = m + 2 := ⟨n - 2, by omega⟩
  rw [readLevel, if_neg (by decide), if_pos rfl]
  exact h n rest (by omega)

/-- A formula that the next level reads is read by a level. -/
theorem readable_next {k : Nat} {x : Formula} (hlevel : k < 8) (hx : Conforms (k + 1) x)
    (h : Reads (k + 1) x) : Readable k x := by
  rcases leads_of_conforms hx with ⟨t, ts, htokens, ht⟩
  constructor
  · -- With a loop, the formula is in hand where the loop begins.
    intro hchains n rest result hstops hchain hn
    obtain ⟨n, rfl⟩ : ∃ m, n = m + 1 := ⟨n - 1, by omega⟩
    rw [readLevel_of_chains hchains, h n rest hstops (by omega), Option.bind_some]
    exact hchain n (by rw [List.length_append] at hn; omega)
  · -- Without one, what the level looks for at the front is not there.
    intro hchains n rest hstops hn
    obtain ⟨n, rfl⟩ : ∃ m, n = m + 1 := ⟨n - 1, by omega⟩
    have hread := h n rest (hstops.mono (Nat.le_succ k)) (by omega)
    rw [htokens, List.cons_append] at hread ⊢
    match k with
    | 0 => rw [readLevel_zero ht, hread]
    | 3 => rw [readLevel_of_sign rfl ht, hread]
    | 7 => rw [readLevel_of_sign rfl ht, hread]
    | 1 | 2 | 4 | 5 | 6 => exact absurd ⟨by decide, by decide, rfl⟩ hchains
    | m + 8 => omega

/-- An operator before an operand is read with it. -/
theorem readable_unary {k : Nat} {op : UnaryOp} {x : Formula} (hop : levelSign? k = some op)
    (h : Readable k x) : Readable k (.unary op x) := by
  have hk := eq_of_levelSign? hop
  refine ⟨fun hchains => ?_, fun _ n rest hstops hn => ?_⟩
  · rw [hchains.2.2] at hop
    cases hop
  · rw [tokens, List.cons_append] at hn ⊢
    rw [List.length_cons] at hn
    obtain ⟨n, rfl⟩ : ∃ m, n = m + 1 := ⟨n - 1, by omega⟩
    have hread := h.reads n rest hstops (by omega)
    rw [readLevel, if_neg (by omega), if_neg (by omega), hop]
    simp only
    rw [strip?_singleton]
    simp only
    rw [hread, Option.map_some]

/-- A formula that follows the grammar is read. -/
theorem readable_of_conforms {k : Nat} {x : Formula} (h : Conforms k x) : Readable k x := by
  induction h with
  | raw s =>
      refine ⟨fun hchains => absurd hchains.1 (by decide), fun _ n rest _ hn => ?_⟩
      obtain ⟨n, rfl⟩ : ∃ m, n = m + 1 := ⟨n - 1, by omega⟩
      rw [readLevel, if_pos rfl]
      rfl
  | next hlevel hx ih => exact readable_next hlevel hx ih.reads
  | unary hop _ ih => exact readable_unary hop ih
  | binary hop hne _ hr ihl ihr =>
      have hchains := chains_of_mem hop
      exact ⟨fun _ => readsOnto_binary hop hne hr (ihl.1 hchains) ihr.reads,
        fun h => absurd hchains h⟩
  | range _ hlo _ ihx ihlo ihhi =>
      have hchains : Chains 4 := ⟨by decide, by decide, rfl⟩
      exact ⟨fun _ => readsOnto_range hlo (ihx.1 hchains) ihlo.reads ihhi.reads,
        fun h => absurd hchains h⟩
  | word hw =>
      refine readable_of_readOperand fun n rest _ => ?_
      rw [tokens, List.singleton_append, readOperand, if_neg hw]
  | text s =>
      refine readable_of_readOperand fun n rest _ => ?_
      rw [tokens, List.singleton_append, readOperand]
  | name s =>
      refine readable_of_readOperand fun n rest _ => ?_
      rw [tokens, List.singleton_append, readOperand]
  | call f hitems ih =>
      refine readable_of_readOperand fun n rest hn => ?_
      rw [tokens, between, List.cons_append, List.cons_append] at hn ⊢
      simp only [List.length_append, List.length_cons, List.length_nil] at hn
      rw [readOperand, readItems_between (Or.inl rfl) hitems fun x hx => (ih x hx).reads,
        Option.map_some]
      simp only [List.length_append, List.length_cons]
      omega
  | array hitems ih =>
      refine readable_of_readOperand fun n rest hn => ?_
      rw [tokens, between, List.cons_append] at hn ⊢
      simp only [List.length_append, List.length_cons, List.length_nil] at hn
      rw [readOperand, readItems_between (Or.inr rfl) hitems fun x hx => (ih x hx).reads,
        Option.map_some]
      simp only [List.length_append, List.length_cons]
      omega
  | list hitems ih =>
      refine readable_of_readOperand fun n rest hn => ?_
      rw [tokens, between, List.cons_append] at hn ⊢
      simp only [List.length_append, List.length_cons, List.length_nil] at hn
      rw [readOperand, readItems_between (Or.inl rfl) hitems fun x hx => (ih x hx).reads,
        Option.map_some]
      simp only [List.length_append, List.length_cons]
      omega

/-! ## What is read follows the grammar -/

theorem of_strip? {front ts r : List Token} (h : strip? front ts = some r) : ts = front ++ r := by
  unfold strip? at h
  split at h
  · rename_i hprefix
    rcases List.isPrefixOf_iff_prefix.1 hprefix with ⟨s, rfl⟩
    rw [List.drop_left, Option.some.injEq] at h
    rw [h]
  · cases h

theorem of_verbatim? {ts r : List Token} {s : List Char} (h : verbatim? ts = some (s, r)) :
    ts = .verbatim s :: r := by
  unfold verbatim? at h
  split at h
  · cases h
    rfl
  · cases h

theorem of_operator? {k : Nat} {op : BinaryOp} {ts r : List Token}
    (h : operator? k ts = some (op, r)) : op ∈ levelOperators k ∧ ts = symbolTokens op ++ r := by
  rcases List.exists_of_findSome?_eq_some h with ⟨o, ho, hfound⟩
  rcases Option.map_eq_some_iff.1 hfound with ⟨r', hstrip, hpair⟩
  cases hpair
  exact ⟨ho, of_strip? hstrip⟩

theorem eq_four_of_between_mem {k : Nat} (h : .between ∈ levelOperators k) : k = 4 := by
  match k with
  | 4 => rfl
  | 0 | 1 | 2 | 3 | 5 | 6 | n + 7 => simp [levelOperators] at h

/-- With some fuel, what the parts of the reader read follows the grammar, and its
    tokens are those at the front. -/
structure Sound (n : Nat) : Prop where
  /-- A formula of a level. -/
  level : ∀ {k ts x r}, k ≤ 8 → readLevel n k ts = some (x, r) →
    Conforms k x ∧ ts = x.tokens ++ r
  /-- What the loop makes of a formula. -/
  chain : ∀ {k x ts y r}, Conforms k x → readChain n k x ts = some (y, r) →
    Conforms k y ∧ x.tokens ++ ts = y.tokens ++ r
  /-- A formula that no operator can take apart. -/
  operand : ∀ {ts x r}, readOperand n ts = some (x, r) → Conforms 8 x ∧ ts = x.tokens ++ r
  /-- Items up to a closing mark. -/
  items : ∀ {c ts xs r}, readItems n c ts = some (xs, r) →
    (∀ x ∈ xs, Conforms 0 x) ∧ ts = commaTokens (listTokens xs) ++ .mark c :: r
  /-- One item or more up to a closing mark. -/
  someItems : ∀ {c ts xs r}, readSomeItems n c ts = some (xs, r) →
    xs ≠ [] ∧ (∀ x ∈ xs, Conforms 0 x) ∧ ts = commaTokens (listTokens xs) ++ .mark c :: r

theorem Sound.level_succ {n : Nat} (h : Sound n) {k : Nat} {ts r : List Token} {x : Formula}
    (hk : k ≤ 8) (hread : readLevel (n + 1) k ts = some (x, r)) :
    Conforms k x ∧ ts = x.tokens ++ r := by
  rw [readLevel] at hread
  split at hread
  · -- The first level takes a raw text.
    rename_i hzero
    subst hzero
    split at hread
    · rename_i s r' hfront
      cases hread
      exact ⟨.raw s, of_verbatim? hfront⟩
    · rcases h.level (by decide) hread with ⟨hx, hts⟩
      exact ⟨.next (by decide) hx, hts⟩
  · split at hread
    · rename_i height
      subst height
      exact h.operand hread
    · have hlt : k < 8 := by omega
      split at hread
      · -- A level with an operator before its operand.
        rename_i op hop
        split at hread
        · rename_i r' hstrip
          rcases Option.map_eq_some_iff.1 hread with ⟨⟨y, r''⟩, hy, hpair⟩
          cases hpair
          rcases h.level hk hy with ⟨hconforms, hts⟩
          exact ⟨.unary hop hconforms, by rw [of_strip? hstrip, hts]; rfl⟩
        · rcases h.level (by omega) hread with ⟨hx, hts⟩
          exact ⟨.next hlt hx, hts⟩
      · -- A level with a loop.
        rcases Option.bind_eq_some_iff.1 hread with ⟨⟨y, r'⟩, hy, hchain⟩
        rcases h.level (by omega) hy with ⟨hconforms, hts⟩
        rcases h.chain (.next hlt hconforms) hchain with ⟨hx, htokens⟩
        exact ⟨hx, by rw [hts, htokens]⟩

theorem Sound.chain_succ {n : Nat} (h : Sound n) {k : Nat} {ts r : List Token} {x y : Formula}
    (hx : Conforms k x) (hread : readChain (n + 1) k x ts = some (y, r)) :
    Conforms k y ∧ x.tokens ++ ts = y.tokens ++ r := by
  rw [readChain] at hread
  split at hread
  · cases hread
    exact ⟨hx, rfl⟩
  · rename_i op r' hop
    rcases of_operator? hop with ⟨hmem, hts⟩
    have hk : k + 1 ≤ 8 := (chains_of_mem hmem).2.1
    split at hread
    · rename_i hbetween
      subst hbetween
      obtain rfl := eq_four_of_between_mem hmem
      rcases Option.bind_eq_some_iff.1 hread with ⟨⟨lo, rlo⟩, hlo, hread⟩
      rcases Option.bind_eq_some_iff.1 hread with ⟨rand, hand, hread⟩
      rcases Option.bind_eq_some_iff.1 hread with ⟨⟨hi, rhi⟩, hhi, hread⟩
      rcases h.level hk hlo with ⟨hlower, htslo⟩
      rcases h.level hk hhi with ⟨hupper, htshi⟩
      rcases h.chain (.range hx hlower hupper) hread with ⟨hy, htokens⟩
      refine ⟨hy, htokens ▸ ?_⟩
      rw [hts, htslo, of_strip? hand, htshi]
      simp only [tokens, List.append_assoc]
    · rename_i hne
      rcases Option.bind_eq_some_iff.1 hread with ⟨⟨z, rz⟩, hz, hread⟩
      rcases h.level hk hz with ⟨hright, htsz⟩
      rcases h.chain (.binary hmem hne hx hright) hread with ⟨hy, htokens⟩
      refine ⟨hy, htokens ▸ ?_⟩
      rw [hts, htsz]
      simp only [tokens, List.append_assoc]

theorem Sound.operand_succ {n : Nat} (h : Sound n) {ts r : List Token} {x : Formula}
    (hread : readOperand (n + 1) ts = some (x, r)) : Conforms 8 x ∧ ts = x.tokens ++ r := by
  unfold readOperand at hread
  split at hread
  · split at hread
    · cases hread
    · rename_i hw
      cases hread
      exact ⟨.word hw, rfl⟩
  · cases hread
    exact ⟨.text _, rfl⟩
  · cases hread
    exact ⟨.name _, rfl⟩
  · rcases Option.map_eq_some_iff.1 hread with ⟨⟨xs, r'⟩, hitems, hpair⟩
    cases hpair
    rcases h.items hitems with ⟨hxs, hts⟩
    exact ⟨.call _ hxs, by rw [hts]; simp [tokens, between]⟩
  · rcases Option.map_eq_some_iff.1 hread with ⟨⟨xs, r'⟩, hitems, hpair⟩
    cases hpair
    rcases h.items hitems with ⟨hxs, hts⟩
    exact ⟨.list hxs, by rw [hts]; simp [tokens, between]⟩
  · rcases Option.map_eq_some_iff.1 hread with ⟨⟨xs, r'⟩, hitems, hpair⟩
    cases hpair
    rcases h.items hitems with ⟨hxs, hts⟩
    exact ⟨.array hxs, by rw [hts]; simp [tokens, between]⟩
  · cases hread

theorem Sound.items_succ {n : Nat} (h : Sound n) {c : Char} {ts r : List Token}
    {xs : List Formula} (hread : readItems (n + 1) c ts = some (xs, r)) :
    (∀ x ∈ xs, Conforms 0 x) ∧ ts = commaTokens (listTokens xs) ++ .mark c :: r := by
  rw [readItems] at hread
  split at hread
  · rename_i r' hstrip
    cases hread
    refine ⟨fun x hx => absurd hx List.not_mem_nil, ?_⟩
    rw [of_strip? hstrip]
    rfl
  · exact (h.someItems hread).2

theorem Sound.someItems_succ {n : Nat} (h : Sound n) {c : Char} {ts r : List Token}
    {xs : List Formula} (hread : readSomeItems (n + 1) c ts = some (xs, r)) :
    xs ≠ [] ∧ (∀ x ∈ xs, Conforms 0 x) ∧
      ts = commaTokens (listTokens xs) ++ .mark c :: r := by
  rw [readSomeItems] at hread
  rcases Option.bind_eq_some_iff.1 hread with ⟨⟨x, rx⟩, hitem, hread⟩
  rcases h.level (by decide) hitem with ⟨hx, hts⟩
  simp only at hread
  split at hread
  · rename_i r' hcomma
    rcases Option.map_eq_some_iff.1 hread with ⟨⟨ys, r''⟩, hitems, hpair⟩
    cases hpair
    rcases h.someItems hitems with ⟨hne, hys, hmore⟩
    refine ⟨List.cons_ne_nil _ _, List.forall_mem_cons.2 ⟨hx, hys⟩, ?_⟩
    cases ys with
    | nil => exact absurd rfl hne
    | cons y ys =>
        rw [hts, of_strip? hcomma, hmore, commaTokens_more, List.append_assoc, List.cons_append]
        rfl
  · rcases Option.map_eq_some_iff.1 hread with ⟨r', hclosing, hpair⟩
    cases hpair
    refine ⟨List.cons_ne_nil _ _, List.forall_mem_cons.2 ⟨hx, fun y hy => ?_⟩, ?_⟩
    · exact absurd hy List.not_mem_nil
    · rw [hts, of_strip? hclosing, commaTokens_one]
      rfl

/-- What is read follows the grammar, whatever the fuel. -/
theorem sound (n : Nat) : Sound n := by
  induction n with
  | zero =>
      refine ⟨fun _ h => ?_, fun _ h => ?_, fun h => ?_, fun h => ?_, fun h => ?_⟩
      · rw [readLevel] at h
        cases h
      · rw [readChain] at h
        cases h
      · rw [readOperand] at h
        cases h
      · rw [readItems] at h
        cases h
      · rw [readSomeItems] at h
        cases h
  | succ n ih =>
      exact ⟨ih.level_succ, ih.chain_succ, ih.operand_succ, ih.items_succ, ih.someItems_succ⟩

/-- The reader decides the grammar: it finds a formula in some tokens exactly if the
    formula follows the grammar and has these tokens. -/
theorem readTokens?_eq_some_iff {ts : List Token} {x : Formula} :
    readTokens? ts = some x ↔ Conforms 0 x ∧ x.tokens = ts := by
  constructor
  · intro h
    unfold readTokens? at h
    split at h
    · rename_i y hread
      cases h
      rcases (sound _).level (by decide) hread with ⟨hx, hts⟩
      exact ⟨hx, by rw [hts, List.append_nil]⟩
    · cases h
  · rintro ⟨hx, rfl⟩
    have hread := (readable_of_conforms hx).reads (16 * x.tokens.length + 16) [] stops_nil
      (by rw [List.append_nil])
    rw [List.append_nil] at hread
    rw [readTokens?, hread]

end Grammar

end ColumnStore
