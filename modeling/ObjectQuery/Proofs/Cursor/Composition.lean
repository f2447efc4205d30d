import ObjectQuery.Proofs.Cursor.Opening
import ObjectQuery.Proofs.Cursor.StableSort

/-!
What a stack of stages gives, as a composition of functions on lists. Events agree with a list up to
the first error, so that nothing is said of values which no reading comes to.
-/

namespace ObjectQuery

open Cursor

/-! ### Events along a list -/

namespace Event

/-- The events are the values of the list up to the first error, and if nothing can fail there is no
error. -/
inductive Along (fallible : Prop) : List Event → List Value → Prop where
  | nil : Along fallible [] []
  | value {events : List Event} {values : List Value} (value : Value)
    (h : Along fallible events values) : Along fallible (.ok value :: events) (value :: values)
  | error {events : List Event} {values : List Value} (error : QueryError) (h : fallible) :
    Along fallible (.error error :: events) values

variable {fallible : Prop} {events : List Event} {values : List Value}

theorem along_map_ok (values : List Value) : Along fallible (values.map .ok) values := by
  induction values with
  | nil => exact .nil
  | cons value rest ih => exact .value value ih

theorem Along.eq_or_drained (h : Along fallible events values) :
    events = values.map .ok ∨
      fallible ∧ ∃ error, (drained events).2 = some error ∧ .error error ∈ events := by
  induction h with
  | nil => exact .inl rfl
  | value value _ ih =>
    rcases ih with rfl | ⟨hfallible, error, hdrained, herror⟩
    · exact .inl rfl
    · exact .inr ⟨hfallible, error, hdrained, List.mem_cons_of_mem _ herror⟩
  | error error hfallible =>
    exact .inr ⟨hfallible, error, rfl, List.mem_cons_self⟩

end Event

/-! ### Stages as functions on lists -/

namespace Cursor

/-- The values behind those that are dropped, and at most so many. -/
def Range.apply (extent : Range) (values : List Value) : List Value :=
  match extent.take with
  | none => values.drop extent.skip
  | some n => (values.drop extent.skip).take n

/-- The keys by which a candidate is sorted, each evaluated in a fresh context; none if that is
fatal. -/
def keysAt (scope : Scope) (stage : Nat) (keys : List SortKey) (candidate : Value) : List Value :=
  (keysOf scope stage keys candidate).toOption.getD []

end Cursor

namespace Stage

/-- The function on lists that a stage stands for. A row that cannot be evaluated counts as null. -/
def apply (scope : Scope) (number : Nat) : Stage → List Value → List Value
  | filter condition, values =>
    values.filter fun value => keeps scope number condition value = .ok true
  | sort keys, values =>
    values.mergeSort fun a b =>
      (SortKey.lexicographic keys (keysAt scope number keys a) (keysAt scope number keys b)).isLE
  | range extent, values => extent.apply values
  | project results, values =>
    values.mapIdx fun turn value => (rowOf scope number results turn value).toOption.getD .null
  | aggregate results, values => [(totalRow scope number results values).toOption.getD .null]

/-- No evaluation that a stage can make over a list is fatal. -/
def Calm (scope : Scope) (number : Nat) : Stage → List Value → Prop
  | filter condition, values => ∀ value ∈ values, ∃ b, keeps scope number condition value = .ok b
  | sort keys, values => ∀ value ∈ values, ∃ found, keysOf scope number keys value = .ok found
  | range _, _ => True
  | project results, values => ∀ turn value, values[turn]? = some value →
    ∃ row, rowOf scope number results turn value = .ok row
  | aggregate results, values => ∃ row, totalRow scope number results values = .ok row

/-- The keys that a sort meets over a list are totally preordered. -/
def Ordered (scope : Scope) (number : Nat) : Stage → List Value → Prop
  | sort keys, values => Std.TransCmp
    fun a b : {found // found ∈ values.map (keysAt scope number keys)} =>
      SortKey.lexicographic keys a.val b.val
  | _, _ => True

variable {scope : Scope} {number : Nat} {fallible : Prop} {events : List Event}
  {values : List Value}

theorem selected_along {condition : Expr} (h : Event.Along fallible events values)
    (hcalm : fallible ∨ (filter condition).Calm scope number values) :
    Event.Along fallible (selected scope number condition events)
      ((filter condition).apply scope number values) := by
  induction h with
  | nil => exact .nil
  | error error hfallible => exact .error error hfallible
  | @value events values value h ih =>
    have ih := ih (hcalm.imp_right fun hcalm value hvalue =>
      hcalm value (List.mem_cons_of_mem _ hvalue))
    rw [selected, apply]
    cases hkeeps : keeps scope number condition value with
    | error error =>
      refine .error _ (hcalm.resolve_right fun hcalm => ?_)
      obtain ⟨b, hb⟩ := hcalm value List.mem_cons_self
      rw [hkeeps] at hb
      cases hb
    | ok b =>
      cases b with
      | true =>
        rw [List.filter_cons_of_pos (by simpa using hkeeps)]
        exact .value value ih
      | false =>
        rw [List.filter_cons_of_neg (by simp [hkeeps])]
        exact ih

theorem ranged_along (extent : Range) (h : Event.Along fallible events values) :
    Event.Along fallible (ranged events extent) (extent.apply values) := by
  induction h generalizing extent with
  | nil =>
    obtain ⟨skip, take⟩ := extent
    cases take <;> simpa [ranged, Range.apply] using Event.Along.nil
  | error error hfallible =>
    rw [ranged]
    split
    · rename_i htake
      -- A range that is spent does not read on, so the error behind it is never met.
      rw [Range.apply, htake]
      exact .nil
    · exact .error error hfallible
  | value value _ ih =>
    obtain ⟨skip, take⟩ := extent
    by_cases htake : take = some 0
    · subst htake
      cases skip <;> simpa [ranged, Range.apply] using Event.Along.nil
    · cases skip with
      | zero =>
        rw [ranged, if_neg htake]
        have ih := ih ⟨0, take.map (· - 1)⟩
        cases take with
        | none => exact .value value ih
        | some n =>
          obtain ⟨n, rfl⟩ := Nat.exists_eq_succ_of_ne_zero fun hn => htake (congrArg some hn)
          exact .value value ih
      | succ skip =>
        rw [ranged, if_neg htake]
        have ih := ih ⟨skip, take⟩
        cases take <;> exact ih

theorem projected_along {results : List Expr} (turn : Nat) (h : Event.Along fallible events values)
    (hcalm : fallible ∨ ∀ i value, values[i]? = some value →
      ∃ row, rowOf scope number results (i + turn) value = .ok row) :
    Event.Along fallible (projected scope number results turn events)
      (values.mapIdx fun i value =>
        (rowOf scope number results (i + turn) value).toOption.getD .null) := by
  induction h generalizing turn with
  | nil => exact .nil
  | error error hfallible => exact .error error hfallible
  | @value events values value h ih =>
    have ih := ih (turn + 1) (hcalm.imp_right fun hcalm i value hvalue => by
      simpa [Nat.add_assoc, Nat.add_comm 1] using hcalm (i + 1) value hvalue)
    rw [projected, List.mapIdx_cons, Nat.zero_add]
    cases hrow : rowOf scope number results turn value with
    | error error =>
      refine .error _ (hcalm.resolve_right fun hcalm => ?_)
      obtain ⟨row, hcalm⟩ := hcalm 0 value rfl
      rw [Nat.zero_add, hrow] at hcalm
      cases hcalm
    | ok row =>
      refine .value row ?_
      simpa [Nat.add_assoc, Nat.add_comm 1] using ih

theorem gather_along {α : Type} (f : Value → Except QueryError α) (total : Value → α)
    (htotal : ∀ value a, f value = .ok a → a = total value) (h : Event.Along fallible events values)
    (hcalm : fallible ∨ ∀ value ∈ values, ∃ a, f value = .ok a) :
    match (gather f events).1 with
    | .ok found => found = values.map total
    | .error _ => fallible := by
  induction h with
  | nil => rfl
  | error error hfallible => exact hfallible
  | @value events values value h ih =>
    have ih := ih (hcalm.imp_right fun hcalm value hvalue =>
      hcalm value (List.mem_cons_of_mem _ hvalue))
    rw [gather]
    cases hvalue : f value with
    | error error =>
      refine hcalm.resolve_right fun hcalm => ?_
      obtain ⟨a, ha⟩ := hcalm value List.mem_cons_self
      rw [hvalue] at ha
      cases ha
    | ok a =>
      cases hrest : (gather f events).1 with
      | error error =>
        rw [hrest] at ih
        exact ih
      | ok found =>
        rw [hrest] at ih
        simp only [Except.map, List.map_cons, htotal value a hvalue, ih]

theorem sorted_map (keys : List SortKey) (found : Value → List Value) (values : List Value)
    (h : Std.TransCmp fun a b : {key // key ∈ values.map found} =>
      SortKey.lexicographic keys a.val b.val) :
    SortKey.sorted keys (values.map fun value => ⟨found value, value⟩) =
      values.mergeSort fun a b => (SortKey.lexicographic keys (found a) (found b)).isLE := by
  have hmem : ∀ a : {value // value ∈ values}, found a.val ∈ values.map found :=
    fun a => List.mem_map_of_mem a.property
  have hvalues : Std.TransCmp fun a b : {value // value ∈ values} =>
      SortKey.lexicographic keys (found a.val) (found b.val) :=
    { eq_swap := fun {a b} => h.eq_swap (a := ⟨_, hmem a⟩) (b := ⟨_, hmem b⟩)
      isLE_trans := fun {a b c} =>
        h.isLE_trans (a := ⟨_, hmem a⟩) (b := ⟨_, hmem b⟩) (c := ⟨_, hmem c⟩) }
  have hsort := @SortKey.map_sortBy Value SortKey.Keyed
    (fun a b => SortKey.lexicographic keys (found a) (found b) == .lt)
    (fun a b => SortKey.lexicographic keys a.values b.values == .lt)
    (fun value => ⟨found value, value⟩) (fun _ _ => rfl) values
  rw [SortKey.sorted, ← hsort, List.map_map]
  exact (List.map_id _).trans (SortKey.sortBy_eq_mergeSort_of_mem _ values hvalues)

/-- A stage makes of events along a list events along the list that it makes of it. -/
theorem opened_along (stage : Stage) (h : Event.Along fallible events values)
    (hcalm : fallible ∨ stage.Calm scope number values)
    (hordered : stage.Ordered scope number values) :
    match (stage.opened scope number events).1 with
    | .ok given => Event.Along fallible given (stage.apply scope number values)
    | .error _ => fallible := by
  cases stage with
  | filter condition => exact selected_along h hcalm
  | range extent => exact ranged_along extent h
  | project results => exact projected_along 0 h hcalm
  | sort keys =>
    have hgather := gather_along (keyed scope number keys)
      (fun value => ⟨keysAt scope number keys value, value⟩) (fun value row hrow => by
        rw [keyed] at hrow
        cases hkeys : keysOf scope number keys value <;> simp_all [keysAt, Except.toOption])
      h (hcalm.imp_right fun hcalm value hvalue => by
        obtain ⟨found, hfound⟩ := hcalm value hvalue
        exact ⟨⟨found, value⟩, by rw [keyed, hfound]⟩)
    rw [opened]
    cases hrows : (gather (keyed scope number keys) events).1 with
    | error error =>
      rw [hrows] at hgather
      exact hgather
    | ok rows =>
      rw [hrows] at hgather
      simp only [Except.map, hgather]
      rw [sorted_map keys (keysAt scope number keys) values hordered]
      exact Event.along_map_ok _
  | aggregate results =>
    have hgather := gather_along Except.ok id
      (fun value a ha => (Except.ok.inj ha).symm) h (.inr fun value _ => ⟨value, rfl⟩)
    rw [opened]
    cases hmembers : (gather (Except.ok : Value → Except QueryError Value) events).1 with
    | error error =>
      rw [hmembers] at hgather
      exact hgather
    | ok members =>
      rw [hmembers, List.map_id] at hgather
      subst hgather
      simp only [Except.bind]
      cases hrow : totalRow scope number results members with
      | error error =>
        refine hcalm.resolve_right fun hcalm => ?_
        obtain ⟨row, hcalm⟩ := hcalm
        rw [hrow] at hcalm
        cases hcalm
      | ok row =>
        simp only [apply, hrow]
        exact Event.along_map_ok [row]

end Stage

/-! ### Stacks of stages -/

namespace Cursor

/-- The composition of what stages stand for, the lowest first. -/
def applyAll (scope : Scope) : Numbered → List Value → List Value
  | [], values => values
  | (stage, number) :: rest, values => applyAll scope rest (stage.apply scope number values)

/-- A property of every stage and the list that it comes to stand over. -/
def Throughout (scope : Scope) (holds : Nat → Stage → List Value → Prop) :
    Numbered → List Value → Prop
  | [], _ => True
  | (stage, number) :: rest, values =>
    holds number stage values ∧ Throughout scope holds rest (stage.apply scope number values)

variable {scope : Scope} {candidates : List Value}

theorem beginAll_along (fallible : Prop) {events : List Event} {values : List Value}
    (stages : Numbered) (h : Event.Along fallible events values)
    (hcalm : fallible ∨ Throughout scope (Stage.Calm scope) stages values)
    (hordered : Throughout scope (Stage.Ordered scope) stages values) :
    match beginAll scope events stages with
    | .ok given => Event.Along fallible given (applyAll scope stages values)
    | .error _ => fallible := by
  induction stages generalizing events values with
  | nil => exact h
  | cons head rest ih =>
    obtain ⟨stage, number⟩ := head
    have hstage := stage.opened_along h (hcalm.imp_right And.left) hordered.1
    rw [beginAll]
    cases hopened : stage.opened scope number events with
    | mk result left =>
      rw [hopened] at hstage
      cases result with
      | error error => exact hstage
      | ok given => exact ih hstage (hcalm.imp_right And.right) hordered.2

theorem faultOf?_zipIdx {stages : List Stage}
    (h : ∀ results, .project results ∈ stages ∨ .aggregate results ∈ stages → results ≠ []) :
    faultOf? (stages.zipIdx 1) = none := by
  rw [faultOf?, List.findSome?_eq_none_iff]
  rintro ⟨stage, number⟩ hmem
  have hmem : stage ∈ stages := List.fst_mem_of_mem_zipIdx (List.mem_reverse.mp hmem)
  cases stage with
  | project results =>
    cases results with
    | nil => exact absurd rfl (h [] (.inl hmem))
    | cons e rest => rfl
  | aggregate results =>
    cases results with
    | nil => exact absurd rfl (h [] (.inr hmem))
    | cons e rest => rfl
  | _ => rfl

theorem runCursor_rows (scope : Scope) [scope.environment.registry.EvaluatesArguments]
    (candidates : List Value) {stages : List Stage} (hfault : faultOf? (stages.zipIdx 1) = none) :
    match beginAll scope (candidates.map .ok) (stages.zipIdx 1) with
    | .ok given =>
      (∃ begun, (Running.start (ofStages scope candidates stages)).init = (.ok (), begun) ∧
        ∀ n, begun.answers n = Event.answers n given) ∧
      (Query.runCursor (ofStages scope candidates stages)).rows =
        match (Event.drained given).2 with
        | none => .ok (Event.drained given).1
        | some error => .error error
    | .error stall =>
      (Query.runCursor (ofStages scope candidates stages)).rows = .error stall.error := by
  have hbegin := (waits_start scope candidates (stages.zipIdx 1)).init_of_faultless hfault
  rw [← ofStages_eq_stack, available, Option.getD_none] at hbegin
  cases hresult : beginAll scope (candidates.map .ok) (stages.zipIdx 1) with
  | error stall =>
    rw [hresult] at hbegin
    obtain ⟨last, trace, -, hinit⟩ := hbegin
    have hstart := Running.init_eq_error (hinit .empty)
    simp only [Query.runCursor, Running.start, hstart]
  | ok given =>
    rw [hresult] at hbegin
    obtain ⟨last, trace, hgives, hinit⟩ := hbegin
    have hstart := Running.init_eq_ok (hinit .empty)
    refine ⟨⟨_, hstart, fun n => Running.answers_of_gives hgives n _⟩, ?_⟩
    obtain ⟨running, hread, -⟩ := Running.readAll_of_gives hgives (.empty ++ trace)
    simp only [Query.runCursor, Running.start, hstart, hread]
    cases Event.drained given with
    | mk rows error => cases error <;> rfl

theorem rows_eq_applyAll [scope.environment.registry.EvaluatesArguments] {stages : List Stage}
    (hfault : faultOf? (stages.zipIdx 1) = none)
    (hordered : Throughout scope (Stage.Ordered scope) (stages.zipIdx 1) candidates)
    (hcalm : Throughout scope (Stage.Calm scope) (stages.zipIdx 1) candidates ∨
      ∀ e, (Query.runCursor (ofStages scope candidates stages)).rows ≠ .error (.evaluation e)) :
    (∃ begun, (Running.start (ofStages scope candidates stages)).init = (.ok (), begun) ∧
      ∀ n, begun.answers n =
        Event.answers n ((applyAll scope (stages.zipIdx 1) candidates).map .ok)) ∧
    (Query.runCursor (ofStages scope candidates stages)).rows =
      .ok (applyAll scope (stages.zipIdx 1) candidates) := by
  have hrows := runCursor_rows scope candidates hfault
  have halong := beginAll_along
    (∀ e, (Query.runCursor (ofStages scope candidates stages)).rows ≠ .error (.evaluation e))
    (stages.zipIdx 1) (Event.along_map_ok candidates) hcalm.symm hordered
  have hevaluated := beginAll_evaluated scope (stages.zipIdx 1) (Event.evaluated_map_ok candidates)
  cases hresult : beginAll scope (candidates.map .ok) (stages.zipIdx 1) with
  | error stall =>
    rw [hresult] at hrows halong hevaluated
    obtain ⟨⟨e, he⟩, -⟩ := hevaluated
    exact absurd (he ▸ hrows) (halong e)
  | ok given =>
    rw [hresult] at hrows halong hevaluated
    obtain ⟨hbegun, hrows⟩ := hrows
    rcases halong.eq_or_drained with rfl | ⟨hfatal, error, hdrained, herror⟩
    · rw [Event.drained_map_ok] at hrows
      exact ⟨hbegun, hrows⟩
    -- The run would end with this error.
    · obtain ⟨e, rfl⟩ := hevaluated error herror
      rw [hdrained] at hrows
      exact absurd hrows (hfatal e)

end Cursor

namespace Query

theorem results_ne_nil (query : Query) (results : List Expr)
    (h : .project results ∈ query.stages ∨ .aggregate results ∈ query.stages) : results ≠ [] := by
  rintro rfl
  have hresult : .project [] ∈ resultStages query.result ∨
    .aggregate [] ∈ resultStages query.result := by
    simpa [stages] using h
  rw [resultStages] at hresult
  cases hlist : query.result with
  | nil => simp [hlist] at hresult
  | cons e rest =>
    rw [hlist] at hresult
    split at hresult <;> simp at hresult

instance (query : Query) (registry : Registry) [registry.EvaluatesArguments] (access : FieldAccess)
    (parameters : Bindings Value) :
    (query.scope registry access parameters).environment.registry.EvaluatesArguments :=
  inferInstanceAs registry.EvaluatesArguments

/-- A stack of stages that have expressions, over keys that are totally preordered, gives the
composition of the functions that its stages stand for and from then on the end, unless an
evaluation is fatal: none is if none can be over the lists that the stages come to stand over, and
otherwise the run tells. So does a query. -/
theorem rows_composed :
    (∀ (scope : Scope) [scope.environment.registry.EvaluatesArguments] (candidates : List Value)
      (stages : List Stage),
      (∀ results, .project results ∈ stages ∨ .aggregate results ∈ stages → results ≠ []) →
      Throughout scope (Stage.Ordered scope) (stages.zipIdx 1) candidates →
      (Throughout scope (Stage.Calm scope) (stages.zipIdx 1) candidates ∨
        ∀ e, (runCursor (ofStages scope candidates stages)).rows ≠ .error (.evaluation e)) →
      ∃ begun, (Running.start (ofStages scope candidates stages)).init = (.ok (), begun) ∧
        (∀ n, begun.answers n =
          ((applyAll scope (stages.zipIdx 1) candidates).map (fun row => Except.ok (some row)) ++
            List.replicate n (Except.ok none)).take n) ∧
        (runCursor (ofStages scope candidates stages)).rows =
          .ok (applyAll scope (stages.zipIdx 1) candidates)) ∧
    ∀ (query : Query) (registry : Registry) [registry.EvaluatesArguments] (access : FieldAccess)
      (candidates : List Value) (supply : InstanceId),
      let scope := query.scope registry access (readParameters query.parameters supply).1
      Throughout scope (Stage.Ordered scope) (query.stages.zipIdx 1) candidates →
      (Throughout scope (Stage.Calm scope) (query.stages.zipIdx 1) candidates ∨
        ∀ e, (query.execute registry access candidates supply).1.rows ≠ .error (.evaluation e)) →
      (query.execute registry access candidates supply).1.rows =
        .ok (applyAll scope (query.stages.zipIdx 1) candidates) := by
  constructor
  · intro scope _ candidates stages hresults hordered hcalm
    obtain ⟨⟨begun, hinit, hanswers⟩, hrows⟩ :=
      rows_eq_applyAll (faultOf?_zipIdx hresults) hordered hcalm
    refine ⟨begun, hinit, fun n => ?_, hrows⟩
    rw [hanswers n, Event.answers, List.map_map]
    rfl
  · intro query registry _ access candidates supply scope hordered hcalm
    exact (rows_eq_applyAll (faultOf?_zipIdx query.results_ne_nil) hordered hcalm).2

/-- Keeps the candidates whose negations are negative. -/
def keepPositive : Stage :=
  .filter (.binary .lt (.unary .neg (.path none ["this"])) (.literal (.int 0)))

/-- The two first positive candidates, in order. -/
def firstPositives : List Stage :=
  [keepPositive, .range ⟨0, some 2⟩, .sort [⟨.path none ["this"], false, .first⟩],
    .project [.path none ["this"]]]

/-- The last candidate cannot be negated, but the range never comes to it. -/
theorem rows_composed_firstPositives :
    let scope := membershipScope []
    let candidates : List Value := [.int 2, .int 1, .boolean true]
    (∀ results, .project results ∈ firstPositives ∨ .aggregate results ∈ firstPositives →
      results ≠ []) ∧
    Throughout scope (Stage.Ordered scope) (firstPositives.zipIdx 1) candidates ∧
    (∀ e, (runCursor (ofStages scope candidates firstPositives)).rows ≠ .error (.evaluation e)) ∧
    ∃ begun, (Running.start (ofStages scope candidates firstPositives)).init = (.ok (), begun) ∧
      ∀ n, begun.answers n =
        ((applyAll scope (firstPositives.zipIdx 1) candidates).map
          (fun row => Except.ok (some row)) ++
          List.replicate n (Except.ok none)).take n := by
  intro scope candidates
  have hresults : ∀ results, .project results ∈ firstPositives ∨
      .aggregate results ∈ firstPositives → results ≠ [] := by
    rintro results (h | h) rfl <;> simp [firstPositives, keepPositive] at h
  have hkeys : ((Stage.range ⟨0, some 2⟩).apply scope 2 (keepPositive.apply scope 1 candidates)).map
      (keysAt scope 3 [⟨.path none ["this"], false, .first⟩]) = [[.int 2], [.int 1]] := rfl
  have hordered : Throughout scope (Stage.Ordered scope) (firstPositives.zipIdx 1) candidates := by
    refine ⟨trivial, trivial, ?_, trivial, trivial⟩
    rw [Stage.Ordered, hkeys]
    exact SortKey.transCmp_of_mem (by decide) (by decide)
  have hrows : (runCursor (ofStages scope candidates firstPositives)).rows.toBool = true := by
    decide +kernel
  have hfatal : ∀ e, (runCursor (ofStages scope candidates firstPositives)).rows ≠
      .error (.evaluation e) := by
    intro e he
    rw [he] at hrows
    cases hrows
  obtain ⟨hstack, -⟩ := rows_composed
  obtain ⟨begun, hinit, hanswers, -⟩ :=
    hstack (membershipScope []) candidates firstPositives hresults hordered (.inr hfatal)
  exact ⟨hresults, hordered, hfatal, begun, hinit, hanswers⟩

end Query

end ObjectQuery
