import ColumnStore.Proofs.Query.References

/-!
# Calls in Another Order

Calls that give another query may be given in another order, as long as those of each kind
stay in theirs. Conditions, sort keys, keys of groups, the selected fields, the window and
the two marks are clauses of a query, and a call changes one clause. It looks up names in
the models and among the selected expressions, and otherwise it reads nothing but its own
clause. So each clause is the work of the calls of its kind alone, as if the query had no
other clauses, and a run of calls is refused if the calls of some kind are.

Calls that add a table or replace the selected expressions are of no kind. They change what
names mean, so other calls may not be moved across them.

## Main definitions

* `Query.Clause`, `Query.Call.clause?`: The clauses, and the one that a call changes.
* `Query.withClause`: A query with a clause of another one.
* `Query.alone`: A query with one of its clauses only.
* `Query.Reordered`: Calls in another order, in which those of each kind stay in theirs.

## Theorems

* `Query.eq_withClause_of_call`: A call changes one clause.
* `Query.call_alone`: It does to the clause alone what it does to the query.
* `Query.foldlM_call_eq_ok_iff`: A run of calls, clause by clause.
* `Query.statements_of_reordered`: Calls in another order give the same statements.
-/

namespace ColumnStore

namespace Query

/-- The clauses of a query. -/
inductive Clause
  /-- The conditions. -/
  | conditions
  /-- The sort keys. -/
  | order
  /-- The keys of groups. -/
  | groups
  /-- The selected fields. -/
  | selection
  /-- The part of the rows. -/
  | window
  /-- Rows once each. -/
  | distinct
  /-- Merged rows. -/
  | merged
  deriving DecidableEq

/-- The clause that a call changes. Names are looked up in the models and among the selected
    expressions, so these are no clauses. -/
def Call.clause? : Call → Option Clause
  | .filter _ => some .conditions
  | .exclude _ => some .conditions
  | .orderBy _ => some .order
  | .groupBy _ => some .groups
  | .only _ => some .selection
  | .aggregate _ => none
  | .join _ _ _ => none
  | .limit _ => some .window
  | .limitWithOffset _ _ => some .window
  | .slice _ _ => some .window
  | .distinctRows => some .distinct
  | .mergedRows => some .merged

/-- The query with a clause of another one. -/
def withClause (q : Query) (k : Clause) (r : Query) : Query :=
  match k with
  | .conditions => { q with filters := r.filters }
  | .order => { q with order := r.order }
  | .groups => { q with groups := r.groups }
  | .selection => { q with selected := r.selected }
  | .window => { q with window := r.window }
  | .distinct => { q with distinct := r.distinct }
  | .merged => { q with merged := r.merged }

/-- The query with one of its clauses only, and with all that names are looked up in. -/
def alone (q : Query) (k : Clause) : Query :=
  withClause { model := q.model, aggregates := q.aggregates, joins := q.joins } k q

variable {q r : Query} {k j : Clause} {c : Call}

/-- The query that is made of clauses. -/
def together (clauses : Clause → Query) : Query :=
  { clauses .window with
    filters := (clauses .conditions).filters
    order := (clauses .order).order
    groups := (clauses .groups).groups
    selected := (clauses .selection).selected
    distinct := (clauses .distinct).distinct
    merged := (clauses .merged).merged }

theorem together_alone (q : Query) : together q.alone = q := rfl

/-- A query is known by its clauses, each of them alone. -/
theorem eq_of_alone (h : ∀ k, q.alone k = r.alone k) : q = r := by
  have hclauses : q.alone = r.alone := funext h
  rw [← together_alone q, hclauses, together_alone]

theorem aggregates_withClause (q : Query) (k : Clause) (r : Query) :
    (q.withClause k r).aggregates = q.aggregates := by
  cases k <;> rfl

/-- The other clauses stay as they are. -/
theorem alone_withClause (q : Query) (r : Query) (h : j ≠ k) :
    (q.withClause k r).alone j = q.alone j := by
  cases k <;> cases j <;> first | rfl | exact absurd rfl h

/-- A call changes one clause. -/
theorem eq_withClause_of_call (hc : c.clause? = some k) (hq : q.call c = .ok r) :
    r = q.withClause k r := by
  cases c with
  | aggregate selection => cases hc
  | join kind other shared => cases hc
  | filter condition =>
    cases hc
    rcases of_bind_eq_ok hq with ⟨resolved, -, hr⟩
    cases hr
    rfl
  | exclude condition =>
    cases hc
    rcases of_bind_eq_ok hq with ⟨resolved, -, hr⟩
    cases hr
    rfl
  | orderBy keys =>
    cases hc
    rcases of_bind_eq_ok hq with ⟨terms, -, hr⟩
    cases hr
    rfl
  | groupBy keys =>
    cases hc
    rcases of_bind_eq_ok hq with ⟨columns, -, hr⟩
    cases hr
    rfl
  | only names =>
    cases hc
    rcases of_only hq with rfl
    rfl
  | slice lower upper =>
    cases hc
    rcases of_bind_eq_ok hq with ⟨window, -, hr⟩
    cases hr
    rfl
  | mergedRows =>
    cases hc
    rcases of_mergedRows hq with rfl
    rfl
  | limit n =>
    cases hc
    cases hq
    rfl
  | limitWithOffset n offset =>
    cases hc
    cases hq
    rfl
  | distinctRows =>
    cases hc
    cases hq
    rfl

/-- A call does to its clause alone what it does to the query. -/
theorem call_alone (q : Query) (hc : c.clause? = some k) :
    (q.alone k).call c = (q.call c).map (alone · k) := by
  cases c with
  | aggregate selection => cases hc
  | join kind other shared => cases hc
  | filter condition =>
    cases hc
    exact bind_pure_eq_map (q.resolve condition) _ _ _ fun _ => rfl
  | exclude condition =>
    cases hc
    exact bind_pure_eq_map (q.resolve condition.not) _ _ _ fun _ => rfl
  | orderBy keys =>
    cases hc
    exact bind_pure_eq_map (keys.mapM q.sortTerm) _ _ _ fun _ => rfl
  | groupBy keys =>
    cases hc
    exact bind_pure_eq_map (keys.mapM q.key) _ _ _ fun _ => rfl
  | slice lower upper =>
    cases hc
    exact bind_pure_eq_map (q.window.slice lower upper) _ _ _ fun _ => rfl
  | only names =>
    cases hc
    show (q.alone .selection).only names = (q.only names).map (alone · .selection)
    have hunknown : (fun name => ((q.alone .selection).model.field? name).isNone) =
        fun name => (q.model.field? name).isNone := rfl
    unfold only
    rw [hunknown]
    cases names.isEmpty with
    | true => rfl
    | false =>
      cases names.find? fun name => (q.model.field? name).isNone with
      | some name => rfl
      | none => rfl
  | mergedRows =>
    cases hc
    show (q.alone .merged).mergedRows = q.mergedRows.map (alone · .merged)
    have hengine : (q.alone .merged).model.engine = q.model.engine := rfl
    unfold mergedRows
    rw [hengine]
    cases q.model.engine.any Engine.mergesRows with
    | true => rfl
    | false => rfl
  | limit n =>
    cases hc
    rfl
  | limitWithOffset n offset =>
    cases hc
    rfl
  | distinctRows =>
    cases hc
    rfl

/-- The calls that change a clause. -/
def callsOf (k : Clause) (calls : List Call) : List Call :=
  calls.filter fun c => c.clause? = some k

/-- A run of calls gives a query if and only if, for each clause, the calls that change it give
    that clause of the query, starting from the clause alone. -/
theorem foldlM_call_eq_ok_iff {calls : List Call} (hcalls : ∀ c ∈ calls, c.clause? ≠ none) :
    calls.foldlM call q = .ok r ↔
      ∀ k, (callsOf k calls).foldlM call (q.alone k) = .ok (r.alone k) := by
  -- Induction on the calls, from the first one on.
  induction calls generalizing q with
  | nil =>
    constructor
    · intro h k
      cases h
      rfl
    · intro h
      have hsame : q = r := eq_of_alone fun k => Except.ok.inj (h k)
      rw [hsame]
      rfl
  | cons c calls ih =>
    rcases Option.ne_none_iff_exists'.1 (hcalls c List.mem_cons_self) with ⟨k, hk⟩
    have hown : callsOf k (c :: calls) = c :: callsOf k calls :=
      List.filter_cons_of_pos (by simp [hk])
    have hfirst : (callsOf k (c :: calls)).foldlM call (q.alone k) =
        (q.call c).map (alone · k) >>= fun q' => (callsOf k calls).foldlM call q' := by
      rw [hown, List.foldlM_cons, call_alone q hk]
    rw [List.foldlM_cons]
    cases hcall : q.call c with
    | error e =>
      -- The call is refused, and so is the run of the calls of its kind.
      refine iff_of_false (fun h => ?_) (fun h => ?_)
      · cases h
      · have hrefused := h k
        rw [hfirst, hcall] at hrefused
        cases hrefused
    | ok q' =>
      -- The other clauses are as they were, and there is no call less for them.
      have hrest (j : Clause) : (callsOf j (c :: calls)).foldlM call (q.alone j) =
          (callsOf j calls).foldlM call (q'.alone j) := by
        by_cases hj : j = k
        · rw [hj, hfirst, hcall]
          rfl
        · have hskip : callsOf j (c :: calls) = callsOf j calls :=
            List.filter_cons_of_neg (by simpa [hk] using fun h => hj h.symm)
          rw [hskip, eq_withClause_of_call hk hcall, alone_withClause q q' hj]
      simp only [hrest]
      exact ih fun c' hc' => hcalls c' (List.mem_cons_of_mem c hc')

/-- Calls in another order, in which those of each kind stay in theirs. -/
structure Reordered (calls calls' : List Call) : Prop where
  /-- The calls are the same ones. -/
  perm : calls.Perm calls'
  /-- Calls that change the same clause come in the same order. -/
  callsOf_eq : ∀ k, callsOf k calls = callsOf k calls'

/-- Calls that give another query may be given to any query in another order, as long as those
    that change the same clause stay in theirs. They are refused in both orders, or in neither,
    and then all statements of the two queries are the same. -/
theorem statements_of_reordered (q : Query) {calls calls' : List Call}
    (hcalls : ∀ c ∈ calls, c.clause? ≠ none) (h : Reordered calls calls') :
    ((∃ r, calls.foldlM call q = .ok r) ↔ ∃ r', calls'.foldlM call q = .ok r') ∧
      ∀ r r', calls.foldlM call q = .ok r → calls'.foldlM call q = .ok r' →
        r.select = r'.select ∧ r.count = r'.count ∧ r.existence = r'.existence ∧
          r.delete = r'.delete := by
  have hcalls' : ∀ c ∈ calls', c.clause? ≠ none := fun c hc => hcalls c (h.perm.mem_iff.2 hc)
  have hsame (r : Query) : calls.foldlM call q = .ok r ↔ calls'.foldlM call q = .ok r := by
    rw [foldlM_call_eq_ok_iff hcalls, foldlM_call_eq_ok_iff hcalls']
    simp only [h.callsOf_eq]
  refine ⟨exists_congr hsame, fun r r' hr hr' => ?_⟩
  rw [(hsame r), hr'] at hr
  cases hr
  exact ⟨rfl, rfl, rfl, rfl⟩

/-- A condition between two limits, and one after them. -/
def dearSales : List Call :=
  [.limit 100, .filter (.binary .gt (.field "price") (.literal (.int 9))),
    .slice (.included 10) .unbounded, .exclude (.binary .eq (.field "client") (.literal (.int 1)))]

/-- The conditions first. -/
def dearSalesFiltered : List Call :=
  [.filter (.binary .gt (.field "price") (.literal (.int 9))),
    .exclude (.binary .eq (.field "client") (.literal (.int 1))), .limit 100,
    .slice (.included 10) .unbounded]

/-- It makes no difference whether limits or conditions come first. -/
theorem statements_of_dearSales :
    (∀ c ∈ dearSales, c.clause? ≠ none) ∧ Reordered dearSales dearSalesFiltered ∧
      ∃ r r', dearSales.foldlM call (all sales) = .ok r ∧
        dearSalesFiltered.foldlM call (all sales) = .ok r' ∧ r.select = r'.select ∧
        r'.select = .query ("SELECT `client`, `price` FROM `sales` WHERE `price` > 9"
          ++ " AND NOT `client` = 1 LIMIT 90 OFFSET 10").toList := by
  have hcalls : ∀ c ∈ dearSales, c.clause? ≠ none := by decide
  have hreordered : Reordered dearSales dearSalesFiltered := by
    refine ⟨(List.Perm.swap _ _ _).trans (.cons _ ?_), fun k => ?_⟩
    · exact (List.Perm.cons _ (.swap _ _ _)).trans (.swap _ _ _)
    · cases k <;> rfl
  exact ⟨hcalls, hreordered, _, _, rfl, rfl,
    ((statements_of_reordered (all sales) hcalls hreordered).2 _ _ rfl rfl).1, rfl⟩

end Query

end ColumnStore
