import ColumnStore.Proofs.Except.Basic
import ColumnStore.Proofs.Query.Names

/-!
# References of a Query

What the names in a statement refer to, for a query that was put together by any calls in
any order. A name is looked up when it is given, in the models and among the selected
expressions that the query has then. Models are only ever added, so a column that was found
stays one. Selected expressions are replaced as a whole, and a key that named one of them
stays behind: it dangles unless the new ones have an expression of its name, or a column
does.

## Main definitions

* `Query.Call`, `Query.call`: A call that gives another query.
* `Query.HasColumn`: Whether one of some models has a column.
* `Query.aliasKeys`: The keys of a run of calls that named selected expressions.
* `Query.Call.aliases`: The names of the selected expressions after a call.
* `Query.Grounded`: What holds of a query after some calls.

## Theorems

* `Query.grounded_call`: What one call preserves.
* `Query.grounded_calls`: What a run of calls preserves.
* `Query.references_of_calls`: What the names in the statement refer to.
* `Query.replaced_alias_dangles`: A key whose expression is gone.
-/

namespace ColumnStore

open Lexical

namespace Query

/-- A call that gives another query. -/
inductive Call
  /-- One more condition. -/
  | filter (condition : Expr)
  /-- One more condition that does not hold. -/
  | exclude (condition : Expr)
  /-- Further sort keys. -/
  | orderBy (keys : List String)
  /-- Further keys of groups. -/
  | groupBy (keys : List String)
  /-- The fields that are selected. -/
  | only (names : List String)
  /-- The expressions that are selected. -/
  | aggregate (selection : List (String × Expr))
  /-- Another table. -/
  | join (kind : JoinKind) (other : Model) (shared : List String)
  /-- The first rows. -/
  | limit (n : UInt64)
  /-- Rows after some rows. -/
  | limitWithOffset (n offset : UInt64)
  /-- A slice of the rows. -/
  | slice (lower upper : Bound)
  /-- The rows once each. -/
  | distinctRows
  /-- The rows as if all merges had been done. -/
  | mergedRows

/-- The query after a call, or its refusal. -/
def call (q : Query) : Call → Except Fault Query
  | .filter condition => q.filter condition
  | .exclude condition => q.exclude condition
  | .orderBy keys => q.orderBy keys
  | .groupBy keys => q.groupBy keys
  | .only names => q.only names
  | .aggregate selection => q.aggregate selection
  | .join kind other shared => q.join kind other shared
  | .limit n => .ok (q.limit n)
  | .limitWithOffset n offset => .ok (q.limitWithOffset n offset)
  | .slice lower upper => q.slice lower upper
  | .distinctRows => .ok q.distinctRows
  | .mergedRows => q.mergedRows

/-- The model that a call adds. -/
def Call.joined : Call → List Model
  | .join _ other _ => [other]
  | _ => []

/-- The names of the selected expressions after a call, given those before it. -/
def Call.aliases (before : List String) : Call → List String
  | .aggregate selection => selection.map (·.1)
  | _ => before

/-- The keys of a call that are no fields of the models. If the call is not refused, they
    name selected expressions. -/
def callAliasKeys (q : Query) : Call → List String
  | .orderBy keys => (keys.map fun k => (splitSign k).1).filter fun n => (q.column? n).isNone
  | .groupBy keys => keys.filter fun n => (q.column? n).isNone
  | _ => []

/-- The keys of a run of calls that were no fields of the models when they were given. -/
def aliasKeys (q : Query) : List Call → List String
  | [] => []
  | c :: cs => q.callAliasKeys c ++
      match q.call c with
      | .ok q' => aliasKeys q' cs
      | .error _ => []

/-- The models whose fields a query knows. -/
def models (q : Query) : List Model :=
  q.model :: q.joins.map Join.model

/-- One of some models has a column. -/
def HasColumn (models : List Model) (name : String) : Prop :=
  ∃ m ∈ models, ∃ f ∈ m.fields, f.column = name

instance (models : List Model) (name : String) : Decidable (HasColumn models name) :=
  inferInstanceAs (Decidable (∃ m ∈ models, ∃ f ∈ m.fields, f.column = name))

theorem HasColumn.append {models : List Model} {name : String} (h : HasColumn models name)
    (more : List Model) : HasColumn (models ++ more) name := by
  rcases h with ⟨m, hm, hf⟩
  exact ⟨m, List.mem_append_left more hm, hf⟩

/-- The keys of groups and of the order. -/
def keys (q : Query) : List String :=
  q.groups ++ q.order.map SortTerm.column

/-- What holds of a query after some calls: the models and the names of the selected
    expressions are those of the calls, and names are columns, but for the keys that named
    selected expressions when they were given. -/
structure Grounded (models : List Model) (aliases dangling : List String) (q : Query) :
    Prop where
  /-- The models are those of the calls. -/
  models_eq : q.models = models
  /-- The selected expressions have the names that were given last. -/
  aliases_eq : q.aggregates.map (·.1) = aliases
  /-- Conditions are about columns. -/
  filters : ∀ e ∈ q.filters, ∀ name ∈ e.fields, HasColumn models name
  /-- Selected expressions are about columns. -/
  aggregates : ∀ a ∈ q.aggregates, ∀ name ∈ a.2.fields, HasColumn models name
  /-- Tables are joined on columns. -/
  shared : ∀ j ∈ q.joins, ∀ name ∈ j.shared, HasColumn models name
  /-- Keys are columns or named selected expressions. -/
  keys : ∀ name ∈ q.keys, HasColumn models name ∨ name ∈ dangling
  /-- Keys that named selected expressions stay. -/
  stays : ∀ name ∈ dangling, name ∈ q.keys

variable {q : Query}

/-- A name that was found is that of a column. -/
theorem hasColumn_of_column? {name column : String} (h : q.column? name = some column) :
    HasColumn q.models column := by
  unfold column? at h
  cases hfield : q.model.field? name with
  | some f =>
    rw [hfield] at h
    exact ⟨q.model, List.mem_cons_self, f, List.mem_of_find?_eq_some hfield, Option.some.inj h⟩
  | none =>
    rw [hfield] at h
    rcases List.exists_of_findSome?_eq_some h with ⟨j, hj, hcolumn⟩
    rcases Option.map_eq_some_iff.1 hcolumn with ⟨f, hf, hname⟩
    exact ⟨j.model, List.mem_cons_of_mem _ (List.mem_map_of_mem hj), f,
      List.mem_of_find?_eq_some hf, hname⟩

/-- An expression that was resolved is about columns. -/
theorem hasColumn_of_resolve {e resolved : Expr} (h : q.resolve e = .ok resolved) :
    ∀ name ∈ resolved.fields, HasColumn q.models name := by
  unfold resolve at h
  cases hunknown : e.fields.find? fun name => (q.column? name).isNone with
  | some name =>
    rw [hunknown] at h
    cases h
  | none =>
    rw [hunknown] at h
    cases h
    intro name hname
    rw [Expr.fields_mapFields] at hname
    rcases List.mem_map.1 hname with ⟨field, hfield, rfl⟩
    have hknown := List.find?_eq_none.1 hunknown field hfield
    cases hcolumn : q.column? field with
    | none =>
      rw [hcolumn] at hknown
      exact absurd rfl hknown
    | some column => exact hasColumn_of_column? hcolumn

/-- A key that was found is a column, or it is as it was given and no field has its name. -/
theorem of_key {name column : String} (h : q.key name = .ok column) :
    (HasColumn q.models column ∧ (q.column? name).isNone = false) ∨
      (column = name ∧ (q.column? name).isNone = true) := by
  unfold key key? at h
  cases hcolumn : q.column? name with
  | some c =>
    rw [hcolumn] at h
    cases h
    exact Or.inl ⟨hasColumn_of_column? hcolumn, rfl⟩
  | none =>
    rw [hcolumn] at h
    by_cases halias : q.aggregates.any fun a => a.1 = name
    · simp only [halias, if_true] at h
      exact Or.inr ⟨(Except.ok.inj h).symm, rfl⟩
    · simp only [halias, Bool.false_eq_true, if_false] at h
      cases h

/-- Expressions that were resolved together have the names that were given, and are about
    columns. -/
theorem of_resolveSelection {seen selection resolved : List (String × Expr)}
    (h : q.resolveSelection seen selection = .ok resolved)
    (hseen : ∀ a ∈ seen, ∀ name ∈ a.2.fields, HasColumn q.models name) :
    resolved.map (·.1) = seen.map (·.1) ++ selection.map (·.1) ∧
      ∀ a ∈ resolved, ∀ name ∈ a.2.fields, HasColumn q.models name := by
  induction selection generalizing seen with
  | nil =>
    cases h
    exact ⟨(List.append_nil _).symm, hseen⟩
  | cons a rest ih =>
    rcases a with ⟨name, e⟩
    unfold resolveSelection at h
    dsimp only at h
    rcases of_bind_eq_ok (of_guard (of_guard h).2).2 with ⟨e', he, hrest⟩
    have hmore : ∀ a ∈ seen ++ [(name, e')], ∀ n ∈ a.2.fields, HasColumn q.models n := by
      intro a ha
      rcases List.mem_append.1 ha with ha | ha
      · exact hseen a ha
      · rw [List.mem_singleton.1 ha]
        exact hasColumn_of_resolve he
    rcases ih hrest hmore with ⟨hnames, hall⟩
    refine ⟨?_, hall⟩
    rw [hnames]
    simp

/-- A column on which tables are joined is one of the first model. -/
theorem of_join {kind : JoinKind} {other : Model} {shared : List String} {q' : Query}
    (h : q.join kind other shared = .ok q') :
    q' = { q with joins := q.joins ++ [⟨kind, other, shared⟩] } ∧
      ∀ name ∈ shared, HasColumn q.models name := by
  unfold join at h
  dsimp only at h
  have hrest := (of_guard h).2
  cases hunknown : shared.find? fun c =>
      (q.model.columnIndex? c).isNone || (other.columnIndex? c).isNone with
  | some c =>
    simp only [hunknown] at hrest
    cases hrest
  | none =>
    simp only [hunknown] at hrest
    cases hrest
    refine ⟨rfl, fun name hname => ?_⟩
    have hknown := List.find?_eq_none.1 hunknown name hname
    cases hindex : q.model.columnIndex? name with
    | none =>
      rw [hindex] at hknown
      exact absurd rfl hknown
    | some i =>
      have hcolumn := (List.findFinIdx?_eq_some_iff.1 hindex).1
      exact ⟨q.model, List.mem_cons_self, q.model.fields.get i, List.get_mem _ i,
        of_decide_eq_true hcolumn⟩

theorem of_only {names : List String} {q' : Query} (h : q.only names = .ok q') :
    q' = { q with selected := some names } := by
  unfold only at h
  dsimp only at h
  have hrest := (of_guard h).2
  cases hunknown : names.find? fun name => (q.model.field? name).isNone with
  | some name =>
    simp only [hunknown] at hrest
    cases hrest
  | none =>
    simp only [hunknown] at hrest
    exact (Except.ok.inj hrest).symm

theorem of_mergedRows {q' : Query} (h : q.mergedRows = .ok q') :
    q' = { q with merged := true } := by
  unfold mergedRows at h
  by_cases hmerges : q.model.engine.any Engine.mergesRows
  · rw [if_pos hmerges] at h
    exact (Except.ok.inj h).symm
  · rw [if_neg hmerges] at h
    cases h

section Step

variable {models : List Model} {aliases dangling : List String} {q' : Query}

/-- The window and the marks of a query have no names in them. -/
theorem Grounded.restrict (h : Grounded models aliases dangling q) (w : Window) (d m : Bool)
    (s : Option (List String)) : Grounded models aliases dangling
      { q with window := w, distinct := d, merged := m, selected := s } :=
  ⟨h.models_eq, h.aliases_eq, h.filters, h.aggregates, h.shared, h.keys, h.stays⟩

theorem Grounded.filter (h : Grounded models aliases dangling q) {condition : Expr}
    (hq : q.filter condition = .ok q') : Grounded models aliases dangling q' := by
  rcases of_bind_eq_ok hq with ⟨resolved, hresolved, hq'⟩
  cases hq'
  refine ⟨h.models_eq, h.aliases_eq, ?_, h.aggregates, h.shared, h.keys, h.stays⟩
  intro e he
  rcases List.mem_append.1 he with he | he
  · exact h.filters e he
  · rw [List.mem_singleton.1 he, ← h.models_eq]
    exact hasColumn_of_resolve hresolved

/-- New keys are columns, or they are among those that named selected expressions. -/
theorem Grounded.moreKeys (h : Grounded models aliases dangling q) {groups : List String}
    {order : List SortTerm} {given : List String} (found : List String)
    (hq : q' = { q with groups := groups, order := order })
    (hkeys : ∀ name, name ∈ q'.keys ↔ name ∈ q.keys ∨ name ∈ found)
    (hback : ∀ c ∈ found, ∃ name ∈ given, q.key name = .ok c)
    (hforth : ∀ name ∈ given, ∃ c ∈ found, q.key name = .ok c) :
    Grounded models aliases (dangling ++ given.filter fun n => (q.column? n).isNone) q' := by
  subst hq
  refine ⟨h.models_eq, h.aliases_eq, h.filters, h.aggregates, h.shared, ?_, ?_⟩
  · intro c hc
    rcases (hkeys c).1 hc with hc | hc
    · rcases h.keys c hc with hcolumn | hdangling
      · exact Or.inl hcolumn
      · exact Or.inr (List.mem_append_left _ hdangling)
    · rcases hback c hc with ⟨name, hname, hkey⟩
      rcases of_key hkey with ⟨hcolumn, -⟩ | ⟨rfl, hnone⟩
      · exact Or.inl (h.models_eq ▸ hcolumn)
      · exact Or.inr (List.mem_append_right _ (List.mem_filter.2 ⟨hname, hnone⟩))
  · intro name hname
    rcases List.mem_append.1 hname with hname | hname
    · exact (hkeys name).2 (Or.inl (h.stays name hname))
    · rcases List.mem_filter.1 hname with ⟨hgiven, hnone⟩
      rcases hforth name hgiven with ⟨c, hc, hkey⟩
      rcases of_key hkey with ⟨-, hsome⟩ | ⟨rfl, -⟩
      · rw [hnone] at hsome
        cases hsome
      · exact (hkeys c).2 (Or.inr hc)

theorem Grounded.groupBy (h : Grounded models aliases dangling q) {given : List String}
    (hq : q.groupBy given = .ok q') :
    Grounded models aliases (dangling ++ q.callAliasKeys (.groupBy given)) q' := by
  rcases of_bind_eq_ok hq with ⟨found, hfound, hq'⟩
  rcases mem_of_mapM hfound with ⟨hback, hforth⟩
  cases hq'
  refine h.moreKeys found rfl (fun name => ?_) hback hforth
  simp only [Query.keys, List.mem_append]
  rw [or_assoc, or_assoc, or_comm (a := name ∈ found)]

theorem Grounded.orderBy (h : Grounded models aliases dangling q) {given : List String}
    (hq : q.orderBy given = .ok q') :
    Grounded models aliases (dangling ++ q.callAliasKeys (.orderBy given)) q' := by
  rcases of_bind_eq_ok hq with ⟨terms, hterms, hq'⟩
  rcases mem_of_mapM hterms with ⟨hback, hforth⟩
  cases hq'
  have hterm {k : String} {t : SortTerm} (ht : q.sortTerm k = .ok t) :
      q.key (splitSign k).1 = .ok t.column := by
    rcases of_bind_eq_ok ht with ⟨c, hc, ht'⟩
    cases ht'
    exact hc
  refine h.moreKeys (terms.map SortTerm.column) rfl (fun name => ?_) ?_ ?_
  · simp only [Query.keys, List.map_append, List.mem_append, or_assoc]
  · refine List.forall_mem_map.2 fun t ht => ?_
    rcases hback t ht with ⟨k, hk, hkt⟩
    exact ⟨_, List.mem_map_of_mem hk, hterm hkt⟩
  · refine List.forall_mem_map.2 fun k hk => ?_
    rcases hforth k hk with ⟨t, ht, hkt⟩
    exact ⟨_, List.mem_map_of_mem ht, hterm hkt⟩

theorem Grounded.aggregate (h : Grounded models aliases dangling q)
    {selection : List (String × Expr)} (hq : q.aggregate selection = .ok q') :
    Grounded models (selection.map (·.1)) dangling q' := by
  unfold Query.aggregate at hq
  dsimp only at hq
  rcases of_bind_eq_ok (of_guard hq).2 with ⟨resolved, hresolved, hq'⟩
  cases hq'
  rcases of_resolveSelection hresolved (by simp) with ⟨hnames, hall⟩
  rw [h.models_eq] at hall
  exact ⟨h.models_eq, hnames, h.filters, hall, h.shared, h.keys, h.stays⟩

theorem Grounded.join (h : Grounded models aliases dangling q) {kind : JoinKind}
    {other : Model} {shared : List String} (hq : q.join kind other shared = .ok q') :
    Grounded (models ++ [other]) aliases dangling q' := by
  rcases of_join hq with ⟨rfl, hshared⟩
  rw [h.models_eq] at hshared
  refine ⟨?_, h.aliases_eq, fun e he name hname => (h.filters e he name hname).append _,
    fun a ha name hname => (h.aggregates a ha name hname).append _, ?_,
    fun name hname => (h.keys name hname).imp_left (HasColumn.append · _), h.stays⟩
  · rw [← h.models_eq]
    simp [Query.models]
  · intro j hj name hname
    rcases List.mem_append.1 hj with hj | hj
    · exact (h.shared j hj name hname).append _
    · rw [List.mem_singleton.1 hj] at hname
      exact (hshared name hname).append _

/-- What one call preserves. -/
theorem grounded_call (h : Grounded models aliases dangling q) (c : Call)
    (hq : q.call c = .ok q') :
    Grounded (models ++ c.joined) (c.aliases aliases) (dangling ++ q.callAliasKeys c) q' := by
  -- Most calls add neither models nor keys that name selected expressions.
  have hmodels {as ds : List String} (h : Grounded models as ds q') :
      Grounded (models ++ []) as ds q' := by rwa [List.append_nil]
  have hkeys {ms : List Model} {as : List String} (h : Grounded ms as dangling q') :
      Grounded ms as (dangling ++ []) q' := by rwa [List.append_nil]
  cases c with
  | orderBy given => exact hmodels (h.orderBy hq)
  | groupBy given => exact hmodels (h.groupBy hq)
  | join kind other shared => exact hkeys (h.join hq)
  | aggregate selection => exact hmodels (hkeys (h.aggregate hq))
  | filter condition => exact hmodels (hkeys (h.filter hq))
  | exclude condition => exact hmodels (hkeys (h.filter hq))
  | only names =>
    rcases of_only hq with rfl
    exact hmodels (hkeys (h.restrict _ _ _ (some names)))
  | limit n =>
    cases hq
    exact hmodels (hkeys (h.restrict ⟨some n, 0⟩ _ _ _))
  | limitWithOffset n offset =>
    cases hq
    exact hmodels (hkeys (h.restrict ⟨some n, offset⟩ _ _ _))
  | slice lower upper =>
    rcases of_bind_eq_ok hq with ⟨window, -, hq'⟩
    cases hq'
    exact hmodels (hkeys (h.restrict window _ _ _))
  | distinctRows =>
    cases hq
    exact hmodels (hkeys (h.restrict _ true _ _))
  | mergedRows =>
    rcases of_mergedRows hq with rfl
    exact hmodels (hkeys (h.restrict _ _ true _))

end Step

/-- What a run of calls preserves. -/
theorem grounded_calls {models : List Model} {aliases dangling : List String}
    (h : Grounded models aliases dangling q) {calls : List Call} {q' : Query}
    (hq : calls.foldlM call q = .ok q') :
    Grounded (models ++ calls.flatMap Call.joined) (calls.foldl Call.aliases aliases)
      (dangling ++ q.aliasKeys calls) q' := by
  -- Induction on the calls, from the first one on.
  induction calls generalizing q models aliases dangling with
  | nil =>
    cases hq
    rw [List.flatMap_nil, List.append_nil, aliasKeys, List.append_nil]
    exact h
  | cons c calls ih =>
    rw [List.foldlM_cons] at hq
    rcases of_bind_eq_ok hq with ⟨q₁, hcall, hrest⟩
    have hall := ih (grounded_call h c hcall) hrest
    rw [List.append_assoc, List.append_assoc] at hall
    rw [List.flatMap_cons, List.foldl_cons, aliasKeys, hcall]
    exact hall

/-- At the start there are no names but those of the model. -/
theorem grounded_all (m : Model) : Grounded [m] [] [] (all m) :=
  ⟨rfl, rfl, by simp [all], by simp [all], by simp [all], by simp [all, keys], by simp⟩

/-- The columns of the selected fields are columns of the model. -/
theorem hasColumn_of_mem_selectedFields {f : Field} (h : f ∈ q.selectedFields) :
    HasColumn q.models f.column := by
  have hmem : f ∈ q.model.fields := by
    unfold selectedFields at h
    cases hselected : q.selected with
    | none =>
      rw [hselected] at h
      exact h
    | some names =>
      rw [hselected] at h
      exact List.mem_of_mem_filter h
  exact ⟨q.model, List.mem_cons_self, f, hmem, rfl⟩

/-- What is selected has the name of an expression or of a column. -/
theorem hasColumn_or_mem_label {name : String} :
    HasColumn q.models name ∨ name ∈ q.parts.namesIn .label ↔
      HasColumn q.models name ∨ name ∈ q.aggregates.map (·.1) := by
  rw [mem_namesIn_label]
  cases haggregate : q.isAggregate with
  | true => simp
  | false =>
    have hnone : q.aggregates = [] := by simpa [isAggregate] using haggregate
    rw [hnone]
    constructor
    · rintro (hcolumn | ⟨-, f, hf, rfl⟩)
      · exact Or.inl hcolumn
      · exact Or.inl (hasColumn_of_mem_selectedFields hf)
    · rintro (hcolumn | hmem)
      · exact Or.inl hcolumn
      · cases hmem

/-- What the names in the statement refer to, after any run of calls that are not refused.
    What is selected and what the condition is about are columns of the models, which are
    the first one and those that were joined. So are the keys, or they are names of what the
    statement selects, exactly if this is true of the keys that were no fields when they
    were given: each of them has to be the name of an expression that was selected last, or
    a column. -/
theorem references_of_calls {m : Model} {calls : List Call} {q : Query}
    (h : calls.foldlM call (all m) = .ok q) :
    q.selectSymbols.flatMap Symbol.text = q.selectText ∧
      scan q.selectSymbols = some q.parts.pieces ∧
      q.models = m :: calls.flatMap Call.joined ∧
      (∀ name ∈ q.parts.namesIn .selection, HasColumn q.models name) ∧
      (∀ name ∈ q.parts.namesIn .condition, HasColumn q.models name) ∧
      (∀ name ∈ q.parts.namesIn .shared, HasColumn q.models name) ∧
      (∀ name ∈ q.parts.namesIn .table, ∃ m ∈ q.models, m.table = name) ∧
      ((∀ name ∈ q.parts.namesIn .groups ++ q.parts.namesIn .order,
          HasColumn q.models name ∨ name ∈ q.parts.namesIn .label) ↔
        ∀ name ∈ (all m).aliasKeys calls,
          HasColumn q.models name ∨ name ∈ calls.foldl Call.aliases []) := by
  have hground := grounded_calls (grounded_all m) h
  have hmodels : q.models = [m] ++ calls.flatMap Call.joined := hground.models_eq
  rw [← hmodels] at hground
  refine ⟨q.text_selectSymbols, q.scan_parts, hmodels, ?_, ?_, ?_, ?_, ?_⟩
  · rw [namesIn_selection]
    intro name hname
    cases haggregate : q.isAggregate with
    | true =>
      simp only [haggregate, if_true] at hname
      rcases List.mem_flatMap.1 hname with ⟨a, ha, hfield⟩
      exact hground.aggregates a ha name hfield
    | false =>
      simp only [haggregate, Bool.false_eq_true, if_false] at hname
      rcases List.mem_map.1 hname with ⟨f, hf, rfl⟩
      exact hasColumn_of_mem_selectedFields hf
  · rw [namesIn_condition]
    intro name hname
    rcases List.mem_flatMap.1 hname with ⟨e, he, hfield⟩
    exact hground.filters e he name hfield
  · rw [namesIn_shared]
    intro name hname
    rcases List.mem_flatMap.1 hname with ⟨j, hj, hshared⟩
    exact hground.shared j hj name hshared
  · intro name hname
    exact mem_namesIn_table hname
  · rw [namesIn_groups, namesIn_order]
    constructor
    · intro hall name hname
      rw [← hground.aliases_eq]
      exact hasColumn_or_mem_label.1 (hall name (hground.stays name hname))
    · intro hall name hname
      rcases hground.keys name hname with hcolumn | hdangling
      · exact Or.inl hcolumn
      · have hname := hall name hdangling
        rw [← hground.aliases_eq] at hname
        exact hasColumn_or_mem_label.2 hname

/-- A table of sales. -/
def sales : Model :=
  ⟨"sales", [{ name := "client", type := .word ⟨false, .w64⟩ },
    { name := "price", type := .word ⟨false, .w32⟩ }], none, false, rfl⟩

/-- A table of clients. -/
def clients : Model :=
  ⟨"clients", [{ name := "client", type := .word ⟨false, .w64⟩ },
    { name := "city", type := .string }], none, false, rfl⟩

/-- Sales by cities, the greatest sum first. -/
def salesByCity : List Call :=
  [.join .inner clients ["client"], .aggregate [("sum", .call "sum" [.field "price"])],
    .groupBy ["city"], .orderBy ["-sum"], .limit 10]

/-- The keys of the sales by cities are a column and the name of what is selected. -/
theorem keys_of_salesByCity :
    ∃ q, salesByCity.foldlM call (all sales) = .ok q ∧
      q.parts.namesIn .groups = ["city"] ∧ q.parts.namesIn .order = ["sum"] ∧
      ∀ name ∈ q.parts.namesIn .groups ++ q.parts.namesIn .order,
        HasColumn q.models name ∨ name ∈ q.parts.namesIn .label :=
  ⟨_, rfl, by decide, by decide,
    (@references_of_calls sales salesByCity _ rfl).2.2.2.2.2.2.2.2 (by decide)⟩

/-- Two selections, the first of which a key names. -/
def countedTwice : List Call :=
  [.aggregate [("first", .call "count" [])], .orderBy ["first"],
    .aggregate [("second", .call "count" [])]]

/-- A key whose expression is gone is neither a column nor the name of what is selected. -/
theorem replaced_alias_dangles :
    ∃ q, countedTwice.foldlM call (all sales) = .ok q ∧
      q.parts.namesIn .order = ["first"] ∧ q.parts.namesIn .label = ["second"] ∧
      ¬ HasColumn q.models "first" :=
  ⟨_, rfl, by decide, by decide, by decide⟩

end Query

end ColumnStore
