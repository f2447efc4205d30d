import ObjectQuery.Proofs.Cursor.Extension
import ObjectQuery.Query

/-!
Pages of a query. Main statement: a page that is full is the same over a longer list of candidates,
whatever the evaluation of those behind the page would come to.
-/

namespace ObjectQuery.Query

open Cursor

/-- A run ends with its rows, or with the error that ends the reading of them. -/
def outcomeOfRead : (List Value × Option QueryError) × Running → Outcome
  | ((_, some error), running) => ⟨.error error, running.progress.trace⟩
  | ((rows, none), running) => ⟨.ok rows, running.progress.trace⟩

theorem runCursor_range (extent : Range) (child : Cursor) :
    runCursor (.range extent child) =
      match child.init ⟨child.start, .empty⟩ with
      | .error error after => ⟨.error error, after.trace⟩
      | .ok _ after => outcomeOfRead (Running.drain (child.remaining after.state + 1)
          ⟨.range extent child, ⟨⟨after.state, some extent⟩, after.trace⟩⟩) := by
  have hinit := range_init_of_notBegun extent child child.start .empty
  cases hchild : child.init ⟨child.start, .empty⟩ with
  | error error after =>
    rw [hchild] at hinit
    have hstart : (Running.start (.range extent child)).init =
        (.error error, ⟨.range extent child, ⟨⟨after.state, none⟩, after.trace⟩⟩) :=
          Running.init_eq_error hinit
    rw [runCursor, hstart]
  | ok _ after =>
    rw [hchild] at hinit
    have hstart : (Running.start (.range extent child)).init =
        (.ok (), ⟨.range extent child, ⟨⟨after.state, some extent⟩, after.trace⟩⟩) := by
      exact Running.init_eq_ok hinit
    rw [runCursor, hstart]
    rfl

theorem runCursor_range_of_filled {first second : Cursor} (extension : Extension first second)
    {extent : Range} {rows : List Value} (hrows : (runCursor (.range extent first)).rows = .ok rows)
    (hfull : extent.take = some rows.length) :
    runCursor (.range extent second) = runCursor (.range extent first) := by
  obtain ⟨skip, take⟩ := extent
  obtain rfl : take = some rows.length := hfull
  rw [runCursor_range] at hrows ⊢
  rw [runCursor_range]
  cases hinit : first.init ⟨first.start, .empty⟩ with
  | error error after =>
    rw [hinit] at hrows
    cases hrows
  | ok _ after =>
    obtain ⟨below, hbelow, hrelated⟩ := extension.init _ _ _ extension.start () _ trivial hinit
    rw [hinit] at hrows
    simp only [hbelow]
    cases hdrain : Running.drain (first.remaining after.state + 1)
        ⟨.range ⟨skip, some rows.length⟩ first,
          ⟨⟨after.state, some ⟨skip, some rows.length⟩⟩, after.trace⟩⟩ with
    | mk read last =>
      obtain ⟨values, fault⟩ := read
      simp only [hdrain] at hrows
      cases fault with
      | some error => cases hrows
      | none =>
        obtain rfl : values = rows := Except.ok.inj hrows
        have hremaining := extension.remaining _ _ hrelated
        obtain ⟨last', hdrain', htrace⟩ :=
          extension.drain_filled (Nat.succ_le_succ hremaining) hrelated hdrain
        rw [hdrain', outcomeOfRead, outcomeOfRead, htrace]

/-- A range over stages that read one at a time, once it is full, is the same over more candidates.
-/
theorem runCursor_ofStages_append {scope : Scope} {stages : List Stage}
    (hreads : ∀ stage ∈ stages, Extension.Reads stage) (extent : Range) (values more : List Value)
    {rows : List Value}
    (hrows : (runCursor (ofStages scope values (stages ++ [.range extent]))).rows = .ok rows)
    (hfull : extent.take = some rows.length) :
    runCursor (ofStages scope (values ++ more) (stages ++ [.range extent])) =
      runCursor (ofStages scope values (stages ++ [.range extent])) := by
  have htop : ∀ candidates, ofStages scope candidates (stages ++ [.range extent]) =
      .range extent (ofStages scope candidates stages) := by
    intro candidates
    rw [ofStages, List.zipIdx_append, List.foldl_append]
    rfl
  rw [htop] at hrows ⊢
  rw [htop]
  exact runCursor_range_of_filled (.ofStages scope values more stages hreads) hrows hfull

/-- A query that neither orders candidates nor gives a single row over all of them, and that has as
many rows as its range asks for, has over more candidates the same rows, and reports and loads no
more for them. -/
theorem execute_append_of_full (query : Query) (registry : Registry) (access : FieldAccess)
    (values more : List Value) (supply : InstanceId) {range : RowRange} {stop : Nat}
    {rows : List Value} (hordering : query.ordering = [])
    (hresult : query.result.any Expr.containsAggregate = false) (hrange : query.range = some range)
    (hstop : range.stop = some stop)
    (hrows : (query.execute registry access values supply).1.rows = .ok rows)
    (hfull : rows.length = stop - range.first) :
    (query.execute registry access (values ++ more) supply).1 =
      (query.execute registry access values supply).1 := by
  let below := (query.filter.map Stage.filter).toList ++ resultStages query.result
  have hstages : query.stages = below ++ [.range (.between range.first (some stop))] := by
    simp [stages, below, hordering, hrange, hstop]
  have hreads : ∀ stage ∈ below, Extension.Reads stage := by
    intro stage hstage
    rcases List.mem_append.mp hstage with hstage | hstage
    · cases hfilter : query.filter with
      | none => simp [hfilter] at hstage
      | some condition =>
        obtain rfl : stage = .filter condition := by simpa [hfilter] using hstage
        trivial
    · rw [resultStages, hresult] at hstage
      split at hstage
      · contradiction
      split at hstage
      · cases hstage
      · obtain rfl := List.mem_singleton.mp hstage
        trivial
  have hexecute : ∀ candidates, (query.execute registry access candidates supply).1 =
      runCursor (ofStages (query.scope registry access (readParameters query.parameters supply).1)
        candidates query.stages) := fun _ => rfl
  rw [hexecute, hstages] at hrows
  rw [hexecute, hexecute, hstages]
  exact runCursor_ofStages_append hreads _ values more hrows (congrArg some hfull.symm)

/-- The first of the candidates whose negations are negative. -/
def firstPositive : Query :=
  { all with
    filter := some (.binary .lt (.unary .neg (.path none ["this"])) (.literal (.int 0)))
    range := some ⟨0, some 1, by simp⟩
    result := [.path none ["this"]] }

/-- A candidate that cannot be negated ends the query, but not behind a full page. -/
theorem execute_append_of_full_firstPositive :
    let run (candidates : List Value) :=
      (firstPositive.execute .empty .detached candidates default).1
    (run [.boolean true]).rows.toBool = false ∧
      ∃ rows : List Value,
        (firstPositive.ordering = [] ∧
          firstPositive.result.any Expr.containsAggregate = false ∧
          (run [.int (-1), .int 2]).rows = .ok rows ∧ rows.length = 1 - 0) ∧
        (run [.int (-1), .int 2, .boolean true]).rows = .ok rows := by
  intro run
  refine ⟨by decide +kernel, ?_⟩
  have hlength : (run [.int (-1), .int 2]).rows.toOption.map List.length = some 1 := by
    decide +kernel
  cases hrows : (run [.int (-1), .int 2]).rows with
  | error error =>
    rw [hrows] at hlength
    cases hlength
  | ok rows =>
    rw [hrows] at hlength
    have hfull : rows.length = 1 - 0 := Option.some.inj hlength
    have hsame := execute_append_of_full firstPositive .empty .detached [.int (-1), .int 2]
      [.boolean true] default rfl rfl rfl rfl hrows hfull
    exact ⟨rows, ⟨rfl, rfl, rfl, hfull⟩, (congrArg Outcome.rows hsame).trans hrows⟩

end ObjectQuery.Query
