import ObjectQuery.Proofs.Cursor.Composition
import ObjectQuery.Proofs.Expr.Tree

/-!
Which queries give a row for each candidate and which give a single row. Main statement: of a query
whose results are no aggregates every filtered candidate has a row of its own, unless a result calls
an aggregate's name on another number of arguments than one; then there is a single row.
-/

namespace ObjectQuery

open Cursor

/-! ### Runs without an error -/

namespace Event

theorem eq_map_ok_of_drained {events : List Event} {values : List Value}
    (h : drained events = (values, none)) : events = values.map .ok := by
  induction events generalizing values with
  | nil =>
    obtain rfl : [] = values := congrArg Prod.fst h
    rfl
  | cons event rest ih =>
    cases event with
    | error error => cases h
    | ok value =>
      obtain ⟨rfl, hrest⟩ := Prod.mk.inj h
      rw [List.map_cons, ← ih (Prod.ext rfl hrest)]

end Event

namespace Cursor

variable {scope : Scope} {number : Nat} {events : List Event} {given : List Value}

theorem selected_eq_map_ok {condition : Expr}
    (h : selected scope number condition events = given.map .ok) :
    ∃ values : List Value, events = values.map .ok ∧
      given = (Stage.filter condition).apply scope number values := by
  induction events generalizing given with
  | nil => exact ⟨[], rfl, (List.map_eq_nil_iff.mp h.symm)⟩
  | cons event rest ih =>
    cases event with
    | error error => cases given <;> simp [selected] at h
    | ok value =>
      rw [selected] at h
      cases hkeeps : keeps scope number condition value with
      | error error =>
        rw [hkeeps] at h
        cases given <;> simp at h
      | ok kept =>
        rw [hkeeps] at h
        cases kept with
        | true =>
          cases given with
          | nil => cases h
          | cons first others =>
            simp only [List.map_cons, List.cons.injEq, Except.ok.injEq] at h
            obtain ⟨rfl, hrest⟩ := h
            obtain ⟨values, rfl, rfl⟩ := ih hrest
            exact ⟨value :: values, rfl, by simp [Stage.apply, hkeeps]⟩
        | false =>
          obtain ⟨values, rfl, rfl⟩ := ih h
          exact ⟨value :: values, rfl, by simp [Stage.apply, hkeeps]⟩

theorem projected_eq_map_ok {results : List Expr} {turn : Nat} {rows : List Value}
    (h : projected scope number results turn events = rows.map .ok) :
    ∃ values : List Value, events = values.map .ok ∧
      values.mapIdx (fun i value => rowOf scope number results (i + turn) value) =
        rows.map .ok := by
  induction events generalizing turn rows with
  | nil => exact ⟨[], rfl, by rw [List.map_eq_nil_iff.mp h.symm]; rfl⟩
  | cons event rest ih =>
    cases event with
    | error error => cases rows <;> simp [projected] at h
    | ok value =>
      cases rows with
      | nil => cases h
      | cons row others =>
        rw [projected, List.map_cons, List.cons.injEq] at h
        obtain ⟨hrow, hrest⟩ := h
        have hrow : rowOf scope number results turn value = .ok row := by
          cases hvalue : rowOf scope number results turn value with
          | error error =>
            rw [hvalue] at hrow
            cases hrow
          | ok found =>
            rw [hvalue] at hrow
            exact congrArg _ (Except.ok.inj hrow)
        obtain ⟨values, rfl, hothers⟩ := ih hrest
        refine ⟨value :: values, rfl, ?_⟩
        rw [List.mapIdx_cons, List.map_cons, Nat.zero_add, hrow, ← hothers]
        simp only [Nat.add_assoc, Nat.add_comm 1]

end Cursor

/-! ### Plans -/

namespace Query

/-- The stages below the one that makes rows. -/
def selection (query : Query) : List Stage :=
  (query.filter.map Stage.filter).toList ++
  (if query.ordering.isEmpty then [] else [.sort (query.ordering.map OrderingTerm.sortKey)])

/-- The number of the stage that makes rows. -/
def resultNumber (query : Query) : Nat := query.selection.length + 1

/-- The candidates for which the condition of the query is true. -/
def filtered (query : Query) (scope : Scope) (candidates : List Value) : List Value :=
  match query.filter with
  | none => candidates
  | some condition => (Stage.filter condition).apply scope 1 candidates

variable {query : Query} {scope : Scope} {candidates : List Value}

theorem beginAll_ordering {terms : List OrderingTerm} {number : Nat} {events : List Event}
    {values : List Value}
    (h : beginAll scope events
      ((if terms.isEmpty then [] else [.sort (terms.map OrderingTerm.sortKey)]).zipIdx number) =
        .ok (values.map .ok)) :
    ∃ given : List Value, events = given.map .ok ∧ values.Perm given ∧
      (terms = [] → values = given) := by
  cases terms with
  | nil => exact ⟨values, Except.ok.inj h, List.Perm.refl _, fun _ => rfl⟩
  | cons term rest =>
    change beginAll scope events [(.sort _, number)] = _ at h
    rw [beginAll] at h
    cases hopened : Stage.opened scope number
        (.sort ((term :: rest).map OrderingTerm.sortKey)) events with
    | mk result left =>
      rw [hopened] at h
      cases result with
      | error error => cases h
      | ok sorted =>
        obtain ⟨_, rows, rfl, rfl, hsorted⟩ := Stage.sort_opened_eq_ok (congrArg Prod.fst hopened)
        rw [hsorted] at h
        obtain rfl := Event.map_ok_injective (Except.ok.inj h)
        exact ⟨_, rfl, SortKey.sorted_perm _ rows, fun hnil => by cases hnil⟩

theorem beginAll_selection {values : List Value}
    (h : beginAll scope (candidates.map .ok) (query.selection.zipIdx 1) = .ok (values.map .ok)) :
    values.Perm (query.filtered scope candidates) ∧
      (query.ordering = [] → values = query.filtered scope candidates) := by
  rw [selection] at h
  rw [filtered]
  cases hfilter : query.filter with
  | none =>
    rw [hfilter] at h
    obtain ⟨given, hgiven, hperm, hsame⟩ := beginAll_ordering h
    obtain rfl : candidates = given := Event.map_ok_injective hgiven
    exact ⟨hperm, hsame⟩
  | some condition =>
    rw [hfilter] at h
    obtain ⟨given, hgiven, hperm, hsame⟩ := beginAll_ordering h
    obtain ⟨read, hread, rfl⟩ := selected_eq_map_ok hgiven
    obtain rfl : candidates = read := Event.map_ok_injective hread
    exact ⟨hperm, hsame⟩

theorem stages_of_range_none (h : query.range = none) :
    query.stages = query.selection ++ resultStages query.result := by
  simp [stages, selection, h]

theorem any_containsAggregate_eq_false_iff {result : List Expr}
    (h : ∀ e ∈ result, e.All fun node => node.isAggregate = false) :
    result.any Expr.containsAggregate = false ↔
      ∀ e ∈ result, e.All fun node => node.namesAggregate → node.isAggregate := by
  rw [List.any_eq_false]
  refine forall₂_congr fun e he => ?_
  rw [Bool.not_eq_true, Expr.containsAggregate_eq_false_iff]
  constructor
  · intro hnames
    exact hnames.imp fun node hnode hnamed => absurd hnamed (by simp [hnode])
  · intro hcalls
    refine ((h e he).and hcalls).imp fun node hnode => ?_
    by_contra hnamed
    rw [hnode.2 (by simpa using hnamed)] at hnode
    cases hnode.1

/-- A run that is not fatal gives what the stage of the rows makes of the stages below. -/
theorem exists_opened_of_rows [scope.environment.registry.EvaluatesArguments] {stage : Stage}
    {rows : List Value} (hfault : faultOf? ((query.selection ++ [stage]).zipIdx 1) = none)
    (hrows : (runCursor (.ofStages scope candidates (query.selection ++ [stage]))).rows =
      .ok rows) :
    ∃ below, beginAll scope (candidates.map .ok) (query.selection.zipIdx 1) = .ok below ∧
      (stage.opened scope query.resultNumber below).1 = .ok (rows.map .ok) := by
  have hrun := runCursor_rows scope candidates hfault
  have hstages : (query.selection ++ [stage]).zipIdx 1 =
      query.selection.zipIdx 1 ++ [(stage, query.resultNumber)] := by
    rw [List.zipIdx_append, resultNumber, Nat.add_comm]
    rfl
  rw [hstages, beginAll_append, hrows] at hrun
  cases hbelow : beginAll scope (candidates.map .ok) (query.selection.zipIdx 1) with
  | error stall =>
    rw [hbelow] at hrun
    cases hrun
  | ok below =>
    refine ⟨below, rfl, ?_⟩
    rw [hbelow] at hrun
    simp only [beginAll] at hrun
    cases hopened : stage.opened scope query.resultNumber below with
    | mk result left =>
      rw [hopened] at hrun
      cases result with
      | error error => cases hrun
      | ok given =>
        obtain ⟨-, hrun⟩ := hrun
        cases hdrained : Event.drained given with
        | mk values error =>
          rw [hdrained] at hrun
          cases error with
          | some error => cases hrun
          | none =>
            obtain rfl := Except.ok.inj hrun
            rw [Event.eq_map_ok_of_drained hdrained]

/-- Over a query whose results hold no aggregate, a run that is not fatal gives a row for each of
the filtered candidates, the results at that candidate, if every call of an aggregate's name is one
on one argument. Otherwise it gives a single row, the results over all filtered candidates. -/
theorem rows_per_candidate (query : Query) (registry : Registry) [registry.EvaluatesArguments]
    (access : FieldAccess) (candidates : List Value) (supply : InstanceId) {rows : List Value}
    (hrange : query.range = none) (hresult : query.result ≠ [])
    (haggregates : ∀ e ∈ query.result, e.All fun node => node.isAggregate = false)
    (hrows : (query.execute registry access candidates supply).1.rows = .ok rows) :
    let scope := query.scope registry access (readParameters query.parameters supply).1
    ∃ arranged : List Value, arranged.Perm (query.filtered scope candidates) ∧
      (query.ordering = [] → arranged = query.filtered scope candidates) ∧
      ((∀ e ∈ query.result, e.All fun node => node.namesAggregate → node.isAggregate) →
        arranged.mapIdx (rowOf scope query.resultNumber query.result) = rows.map .ok) ∧
      (¬ (∀ e ∈ query.result, e.All fun node => node.namesAggregate → node.isAggregate) →
        ∃ row, rows = [row] ∧
          totalRow scope query.resultNumber query.result arranged = .ok row) := by
  intro scope
  have hfault := faultOf?_zipIdx query.results_ne_nil
  have hrows : (runCursor (.ofStages scope candidates query.stages)).rows = .ok rows := hrows
  rw [← any_containsAggregate_eq_false_iff haggregates]
  rw [stages_of_range_none hrange, resultStages] at hfault hrows
  by_cases hany : query.result.any Expr.containsAggregate
  · rw [if_pos hany] at hfault hrows
    obtain ⟨below, hbelow, hopened⟩ := exists_opened_of_rows hfault hrows
    obtain ⟨arranged, row, rfl, htotal, hgiven⟩ := Stage.aggregate_opened_eq_ok hopened
    have hrow : rows = [row] := Event.map_ok_injective hgiven
    obtain ⟨hperm, hsame⟩ := beginAll_selection hbelow
    exact ⟨arranged, hperm, hsame, fun hnone => by simp [hany] at hnone,
      fun _ => ⟨row, hrow, htotal⟩⟩
  · rw [if_neg hany, if_neg (by simpa using hresult)] at hfault hrows
    obtain ⟨below, hbelow, hopened⟩ := exists_opened_of_rows hfault hrows
    obtain ⟨arranged, rfl, hmap⟩ := projected_eq_map_ok (Except.ok.inj hopened)
    obtain ⟨hperm, hsame⟩ := beginAll_selection hbelow
    exact ⟨arranged, hperm, hsame, fun _ => hmap, fun hsome => by simp [hany] at hsome⟩

/-- The candidates above one, the greatest first. -/
def aboveOne : Query :=
  { all with
    filter := some (.binary .gt (.path none ["this"]) (.literal (.int 1)))
    ordering := [⟨.path none ["this"], true, none⟩]
    result := [.path none ["this"]] }

theorem rows_per_candidate_aboveOne :
    ∃ rows : List Value,
      (aboveOne.range = none ∧ aboveOne.result ≠ [] ∧
        (∀ e ∈ aboveOne.result, e.All fun node => node.isAggregate = false) ∧
        (aboveOne.execute .empty .detached [.int 1, .int 2, .int 3] default).1.rows = .ok rows) ∧
      ∃ arranged : List Value, arranged.mapIdx
        (rowOf (aboveOne.scope .empty .detached []) aboveOne.resultNumber aboveOne.result) =
          rows.map .ok := by
  have hresult : ∀ e ∈ aboveOne.result, e.All fun node => node.isAggregate = false := by
    intro e he
    obtain rfl := List.mem_singleton.mp he
    exact .node rfl fun _ hchild => by cases hchild
  have hcalls : ∀ e ∈ aboveOne.result,
      e.All fun node => node.namesAggregate → node.isAggregate := by
    intro e he
    obtain rfl := List.mem_singleton.mp he
    exact .node (fun h => by cases h) fun _ hchild => by cases hchild
  have hrun : (aboveOne.execute .empty .detached [.int 1, .int 2, .int 3] default).1.rows.toBool =
      true := by decide +kernel
  cases hrows : (aboveOne.execute .empty .detached [.int 1, .int 2, .int 3] default).1.rows with
  | error error =>
    rw [hrows] at hrun
    cases hrun
  | ok rows =>
    obtain ⟨arranged, -, -, hper, -⟩ :=
      rows_per_candidate aboveOne .empty .detached _ default rfl (by decide) hresult hrows
    exact ⟨rows, ⟨rfl, by decide, hresult, rfl⟩, arranged, hper hcalls⟩

/-- The greater of each candidate and one, if there is a function of that name. -/
def atLeastOne : Query :=
  { all with result := [.callFunction "max" [.path none ["this"], .literal (.int 1)]] }

/-- A call of an aggregate's name on two arguments is none, but it makes two candidates one row. -/
theorem rows_of_two_arguments :
    (∀ e ∈ atLeastOne.result, e.All fun node => node.isAggregate = false) ∧
    atLeastOne.filtered (atLeastOne.scope .empty .detached []) [.int 1, .int 2] =
      [.int 1, .int 2] ∧
    (atLeastOne.execute .empty .detached [.int 1, .int 2] default).1.rows.toOption.map
      (·.map Value.isNull) = some [true] := by
  refine ⟨?_, rfl, by decide +kernel⟩
  intro e he
  obtain rfl := List.mem_singleton.mp he
  refine .node rfl fun child hchild => ?_
  rcases List.mem_pair.mp hchild with rfl | rfl <;>
    exact .node rfl fun _ hchild => by cases hchild

end Query

end ObjectQuery
