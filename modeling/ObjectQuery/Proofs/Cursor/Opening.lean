import ObjectQuery.Cursor.Stage
import ObjectQuery.Proofs.Cursor.Gathering
import Mathlib.Data.List.Induction

/-!
Beginning a stack of stages. The stages begin from the lowest one up, and a stage that fails leaves
those below it begun. Beginning again goes on from there: the scan starts over, but a stage that has
begun has only what it has not given yet.
-/

namespace ObjectQuery

open Cursor

/-! ### One stage -/

namespace Stage

/-- The error of a stage without expressions, which it reports before it does anything. -/
def fault? : Stage → Option QueryError
  | project [] => some .noProjection
  | aggregate [] => some .noAggregation
  | _ => none

/-- What a stage gives once it has begun, or why it cannot begin, and then what it leaves below. -/
def opened (scope : Scope) (number : Nat) : Stage → List Event →
    Except QueryError (List Event) × List Event
  | filter condition, events => (.ok (selected scope number condition events), [])
  | range extent, events => (.ok (ranged events extent), [])
  | project results, events => (.ok (projected scope number results 0 events), [])
  | sort keys, events =>
    ((gather (keyed scope number keys) events).1.map fun rows => (SortKey.sorted keys rows).map .ok,
      (gather (keyed scope number keys) events).2)
  | aggregate results, events =>
    ((gather .ok events).1.bind fun members =>
        ((totalRow scope number results members).mapError .evaluation).map fun row => [.ok row],
      (gather Except.ok events).2)

theorem opened_evaluated (scope : Scope) (number : Nat) (stage : Stage) {events : List Event}
    (h : Event.Evaluated events) :
    match (stage.opened scope number events).1 with
    | .ok given => Event.Evaluated given
    | .error error => ∃ e, error = .evaluation e := by
  cases stage with
  | filter condition => exact selected_evaluated h
  | range extent => exact ranged_evaluated extent h
  | project results => exact projected_evaluated 0 h
  | sort keys =>
    rw [opened]
    cases hrows : (gather (keyed scope number keys) events).1 with
    | error error => exact gather_evaluated keyed_evaluated h hrows
    | ok rows => exact Event.evaluated_map_ok _
  | aggregate results =>
    rw [opened]
    cases hmembers : (gather (Except.ok : Value → Except QueryError Value) events).1 with
    | error error => exact gather_evaluated (fun _ _ h => by cases h) h hmembers
    | ok members =>
      simp only [Except.bind]
      cases totalRow scope number results members with
      | error e => exact ⟨e, rfl⟩
      | ok row => exact Event.evaluated_map_ok [row]

theorem sort_opened_eq_ok {scope : Scope} {number : Nat} {keys : List SortKey}
    {events given : List Event} (h : ((sort keys).opened scope number events).1 = .ok given) :
    ∃ (values : List Value) (rows : List SortKey.Keyed), events = values.map .ok ∧
      rows.map SortKey.Keyed.candidate = values ∧ given = (SortKey.sorted keys rows).map .ok := by
  rw [opened] at h
  cases hrows : (gather (keyed scope number keys) events).1 with
  | error error =>
    rw [hrows] at h
    cases h
  | ok rows =>
    rw [hrows] at h
    obtain ⟨values, rfl, hkeyed⟩ := gather_eq_ok hrows
    exact ⟨values, rows, rfl, candidates_of_keyed hkeyed, (Except.ok.inj h).symm⟩

theorem aggregate_opened_eq_ok {scope : Scope} {number : Nat} {results : List Expr}
    {events given : List Event}
    (h : ((aggregate results).opened scope number events).1 = .ok given) :
    ∃ (values : List Value) (row : Value), events = values.map .ok ∧
      totalRow scope number results values = .ok row ∧ given = [.ok row] := by
  rw [opened] at h
  cases hmembers : (gather (Except.ok : Value → Except QueryError Value) events).1 with
  | error error =>
    rw [hmembers] at h
    cases h
  | ok members =>
    obtain ⟨values, rfl, hvalues⟩ := gather_eq_ok hmembers
    obtain rfl : values = members := Event.map_ok_injective hvalues
    rw [hmembers] at h
    cases hrow : totalRow scope number results values with
    | error error =>
      simp only [hrow, Except.bind] at h
      cases h
    | ok row =>
      simp only [hrow, Except.bind] at h
      exact ⟨values, row, rfl, hrow, (Except.ok.inj h).symm⟩

theorem left_suffix (scope : Scope) (number : Nat) (stage : Stage) (events : List Event) :
    (stage.opened scope number events).2 <:+ events := by
  cases stage with
  | sort keys =>
    rw [opened]
    exact gather_left_suffix _ _
  | aggregate results =>
    rw [opened]
    exact gather_left_suffix _ _
  | _ => exact List.nil_suffix

/-- The state of a stage that has not begun. -/
def waiting (scope : Scope) (number : Nat) {child : Cursor} (below : child.State) :
    (stage : Stage) → (stage.cursor scope number child).State
  | filter _ => (⟨below, none⟩ : Layer child.State (Option Context))
  | sort _ => (⟨below, none⟩ : Layer child.State (Option (List Value)))
  | range _ => (⟨below, none⟩ : Layer child.State (Option Range))
  | project _ => (⟨below, none⟩ : Layer child.State (Option Projecting))
  | aggregate _ => (⟨below, none⟩ : Layer child.State (Option (Option Value)))

variable {scope : Scope} {number : Nat} {child : Cursor} {stage : Stage} {below last : child.State}
  {before after : Trace} {error : QueryError}

theorem start_eq_waiting :
    (stage.cursor scope number child).start = stage.waiting scope number child.start := by
  cases stage <;> rfl

theorem next_waiting :
    (stage.cursor scope number child).next ⟨stage.waiting scope number below, before⟩ =
      .error .notInitialised ⟨stage.waiting scope number below, before⟩ := by
  cases stage <;> rfl

theorem init_of_fault (hfault : stage.fault? = some error) :
    (stage.cursor scope number child).init ⟨stage.waiting scope number below, before⟩ =
      .error error ⟨stage.waiting scope number below, before⟩ := by
  cases stage with
  | project results | aggregate results =>
    cases results with
    | nil =>
      cases hfault
      rfl
    | cons e rest => cases hfault
  | _ => cases hfault

theorem init_of_error (hfault : stage.fault? = none)
    (hinit : child.init ⟨below, before⟩ = .error error ⟨last, after⟩) :
    (stage.cursor scope number child).init ⟨stage.waiting scope number below, before⟩ =
      .error error ⟨stage.waiting scope number last, after⟩ := by
  cases stage with
  | filter condition | sort keys | range extent =>
    refine (Work.notBegun rfl).trans ?_
    simp only [Bind.bind, EStateM.bind, Work.below, waiting, hinit]
    rfl
  | project results | aggregate results =>
    cases results with
    | nil => cases hfault
    | cons e rest =>
      refine (Work.notBegun rfl).trans ?_
      simp only [Bind.bind, EStateM.bind, Work.below, waiting, hinit, List.isEmpty_cons,
        Bool.false_eq_true, if_false]
      rfl

/-- What a stage that begins over given events comes to. -/
def Begins (scope : Scope) (number : Nat) (stage : Stage) {child : Cursor}
    (kept : child.State → Prop) (begun : child.State) (events : List Event) : Prop :=
  match (stage.opened scope number events).1 with
  | .ok given => ∃ state trace, (stage.cursor scope number child).Gives (Begun _) state given ∧
    ∀ below before after, child.init ⟨below, before⟩ = .ok () ⟨begun, after⟩ →
      (stage.cursor scope number child).init ⟨stage.waiting scope number below, before⟩ =
        .ok () ⟨state, after ++ trace⟩
  | .error error => ∃ last trace, child.Gives kept last (stage.opened scope number events).2 ∧
    ∀ below before after, child.init ⟨below, before⟩ = .ok () ⟨begun, after⟩ →
      (stage.cursor scope number child).init ⟨stage.waiting scope number below, before⟩ =
        .error error ⟨stage.waiting scope number last, after ++ trace⟩

section Begins

variable {kept : child.State → Prop} {events : List Event} {begun : child.State}

theorem filter_begins [scope.environment.registry.EvaluatesArguments] (condition : Expr)
    (h : child.Gives kept begun events) :
    (filter condition).Begins scope number kept begun events := by
  refine ⟨_, .empty, filter_gives condition h, fun below before after hinit => ?_⟩
  rw [Trace.append_empty]
  refine (Work.notBegun rfl).trans ?_
  simp only [Bind.bind, EStateM.bind, Work.below, waiting, hinit]
  rfl

theorem range_begins (extent : Range) (h : child.Gives kept begun events) :
    (range extent).Begins scope number kept begun events := by
  refine ⟨_, .empty, range_gives extent extent h, fun below before after hinit => ?_⟩
  rw [Trace.append_empty]
  refine (Work.notBegun rfl).trans ?_
  simp only [Bind.bind, EStateM.bind, Work.below, waiting, hinit]
  rfl

theorem project_begins [scope.environment.registry.EvaluatesArguments] {results : List Expr}
    (hfault : (project results).fault? = none) (h : child.Gives kept begun events) :
    (project results).Begins scope number kept begun events := by
  cases results with
  | nil => cases hfault
  | cons e rest =>
    refine ⟨_, .empty, project_gives (e :: rest) 0 h, fun below before after hinit => ?_⟩
    rw [Trace.append_empty]
    refine (Work.notBegun rfl).trans ?_
    simp only [Bind.bind, EStateM.bind, Work.below, waiting, hinit, List.isEmpty_cons,
      Bool.false_eq_true, if_false]
    rfl

theorem sort_begins [scope.environment.registry.EvaluatesArguments] (keys : List SortKey)
    (h : child.Gives kept begun events) :
    (sort keys).Begins scope number kept begun events := by
  obtain ⟨last, trace, hlast, hread⟩ := readKeyed_of_gives scope number keys h
  have hfuel := Nat.lt_succ_of_le h.length_le
  rw [Begins, opened]
  cases hgather : (gather (keyed scope number keys) events).1 with
  | error error =>
    refine ⟨last, trace, hlast, fun below before after hinit => ?_⟩
    refine (Work.notBegun rfl).trans ?_
    simp only [Bind.bind, EStateM.bind, Work.below, waiting, hinit, Work.get_apply,
      hread _ _ _ _ hfuel (.inl rfl), hgather]
    rfl
  | ok rows =>
    refine ⟨_, trace, sort_gives keys last (SortKey.sorted keys rows),
      fun below before after hinit => ?_⟩
    refine (Work.notBegun rfl).trans ?_
    simp only [Bind.bind, EStateM.bind, Work.below, waiting, hinit, Work.get_apply,
      hread _ _ _ _ hfuel (.inl rfl), hgather]
    rfl

theorem aggregate_begins [scope.environment.registry.EvaluatesArguments] {results : List Expr}
    (hfault : (aggregate results).fault? = none) (h : child.Gives kept begun events) :
    (aggregate results).Begins scope number kept begun events := by
  obtain ⟨last, trace, hlast, hread⟩ := readMembers_of_gives h
  have hfuel := Nat.lt_succ_of_le h.length_le
  have hempty : results.isEmpty = false := by
    cases results with
    | nil => cases hfault
    | cons e rest => rfl
  rw [Begins, opened]
  cases hgather : (gather (Except.ok : Value → Except QueryError Value) events).1 with
  | error error =>
    refine ⟨last, trace, hlast, fun below before after hinit => ?_⟩
    refine (Work.notBegun rfl).trans ?_
    simp only [Bind.bind, EStateM.bind, Work.below, waiting, hinit, hempty, Bool.false_eq_true,
      if_false, Work.get_apply, hread _ _ _ hfuel, hgather]
    rfl
  | ok members =>
    obtain ⟨trace', made, hsettles⟩ := (rowValues_steady scope results).settles
      { scope.context with resultSet := some members } (stageSupply number 0)
    have hinit : ∀ below before after, child.init ⟨below, before⟩ = .ok () ⟨begun, after⟩ →
        (Cursor.aggregate scope number results child).init ⟨⟨below, none⟩, before⟩ =
          (do Work.setOwn (some (some (← Work.ofExcept (totalRow scope number results members)))) :
            Work (Layer child.State (Option (Option Value))) Unit)
          ⟨⟨last, none⟩, after ++ (trace ++ trace')⟩ := by
      intro below before after hinit
      have hevaluating := Work.evaluating_of_settles hsettles
        (⟨⟨last, none⟩, after ++ trace⟩ :
          Progress (Layer child.State (Option (Option Value))))
      refine (Work.notBegun rfl).trans ?_
      simp only [Bind.bind, EStateM.bind, Work.below, hinit, hempty, Bool.false_eq_true,
        if_false, Work.get_apply, hread _ _ _ hfuel, hgather,
        hevaluating, totalRow, Trace.append_assoc]
      cases (outcomeOf (rowValues scope results) { scope.context with resultSet := some members }
        (stageSupply number 0)).result <;> rfl
    cases hrow : totalRow scope number results members with
    | error error =>
      rw [hrow] at hinit
      simp only [Except.bind, hrow]
      exact ⟨last, _, hlast, hinit⟩
    | ok row =>
      rw [hrow] at hinit
      simp only [Except.bind, hrow]
      exact ⟨_, _, aggregate_gives results last row, hinit⟩

theorem begins (scope : Scope) [scope.environment.registry.EvaluatesArguments] (number : Nat)
    (hfault : stage.fault? = none) (h : child.Gives kept begun events) :
    stage.Begins scope number kept begun events := by
  cases stage with
  | filter condition => exact filter_begins condition h
  | sort keys => exact sort_begins keys h
  | range extent => exact range_begins extent h
  | project results => exact project_begins hfault h
  | aggregate results => exact aggregate_begins hfault h

end Begins

end Stage

namespace Cursor

variable {scope : Scope} {candidates : List Value}

/-! ### Stacks of stages -/

/-- Stages with their numbers, the lowest one first. -/
abbrev Numbered := List (Stage × Nat)

/-- The cursor of numbered stages over candidates. -/
def stack (scope : Scope) (candidates : List Value) (stages : Numbered) : Cursor :=
  stages.foldl (fun child (stage, number) => stage.cursor scope number child) (scan candidates)

theorem ofStages_eq_stack (scope : Scope) (candidates : List Value) (stages : List Stage) :
    ofStages scope candidates stages = stack scope candidates (stages.zipIdx 1) := rfl

theorem stack_append (scope : Scope) (candidates : List Value) (stages : Numbered) (stage : Stage)
    (number : Nat) :
    stack scope candidates (stages ++ [(stage, number)]) =
      stage.cursor scope number (stack scope candidates stages) := by
  simp [stack]

/-- The error of a stage without expressions, the highest one if there are several. -/
def faultOf? (stages : Numbered) : Option QueryError :=
  stages.reverse.findSome? fun (stage, _) => stage.fault?

theorem faultOf?_append (stages : Numbered) (stage : Stage) (number : Nat) :
    faultOf? (stages ++ [(stage, number)]) = stage.fault?.or (faultOf? stages) := by
  simp only [faultOf?, List.reverse_append, List.reverse_cons, List.reverse_nil, List.nil_append,
    List.cons_append, List.findSome?_cons]
  cases stage.fault? <;> rfl

/-- Where the beginning of a stack stopped: the error, the events that are left of the stages that
have begun, and the stages that have not. -/
structure Stall where
  error : QueryError
  left : List Event
  waiting : Numbered

/-- Begins stages one after another over the given events. -/
def beginAll (scope : Scope) : List Event → Numbered → Except Stall (List Event)
  | events, [] => .ok events
  | events, (stage, number) :: rest =>
    match stage.opened scope number events with
    | (.ok given, _) => beginAll scope given rest
    | (.error error, left) => .error ⟨error, left, (stage, number) :: rest⟩

theorem beginAll_append (events : List Event) (stages : Numbered) (stage : Stage)
    (number : Nat) :
    beginAll scope events (stages ++ [(stage, number)]) =
      match beginAll scope events stages with
      | .ok given => beginAll scope given [(stage, number)]
      | .error stall => .error { stall with waiting := stall.waiting ++ [(stage, number)] } := by
  induction stages generalizing events with
  | nil => rfl
  | cons head rest ih =>
    obtain ⟨lower, n⟩ := head
    simp only [List.cons_append, beginAll]
    split
    · exact ih _
    · rfl

theorem beginAll_waiting {events : List Event} {stages : Numbered} {stall : Stall}
    (h : beginAll scope events stages = .error stall) :
    stall.waiting <:+ stages ∧ stall.waiting ≠ [] := by
  induction stages generalizing events with
  | nil => cases h
  | cons head rest ih =>
    obtain ⟨stage, number⟩ := head
    rw [beginAll] at h
    split at h
    · obtain ⟨hsuffix, hne⟩ := ih h
      exact ⟨hsuffix.trans (List.suffix_cons _ _), hne⟩
    · cases h
      exact ⟨List.suffix_refl _, List.cons_ne_nil _ _⟩

theorem faultOf?_suffix {upper stages : Numbered} (hsuffix : upper <:+ stages)
    (h : faultOf? stages = none) : faultOf? upper = none := by
  rw [faultOf?, List.findSome?_eq_none_iff] at h ⊢
  exact fun stage hstage => h stage (List.mem_reverse.mpr
    (hsuffix.subset (List.mem_reverse.mp hstage)))

theorem beginAll_evaluated (scope : Scope) {events : List Event} (stages : Numbered)
    (h : Event.Evaluated events) :
    match beginAll scope events stages with
    | .ok given => Event.Evaluated given
    | .error stall => (∃ e, stall.error = .evaluation e) ∧ Event.Evaluated stall.left := by
  induction stages generalizing events with
  | nil => exact h
  | cons head rest ih =>
    obtain ⟨stage, number⟩ := head
    have hstage := stage.opened_evaluated scope number h
    have hleft := stage.left_suffix scope number events
    rw [beginAll]
    cases hopened : stage.opened scope number events with
    | mk result left =>
      rw [hopened] at hstage hleft
      cases result with
      | ok given => exact ih hstage
      | error error => exact ⟨hstage, fun e he => h e (hleft.subset he)⟩

/-- A cursor at which the given stages have not begun. What has begun below them has the given
events left; if nothing has, there is only the scan. -/
inductive Waits (scope : Scope) (candidates : List Value) :
    (cursor : Cursor) → cursor.State → Option (List Event) → Numbered → Prop where
  | scan (state : (scan candidates).State) : Waits scope candidates (scan candidates) state none []
  | begun {cursor : Cursor} {state : cursor.State} {events : List Event}
    (h : cursor.Gives (Begun cursor) state events) :
    Waits scope candidates cursor state (some events) []
  | waiting {child : Cursor} {below : child.State} {left : Option (List Event)}
    {stages : Numbered} (stage : Stage) (number : Nat)
    (h : Waits scope candidates child below left stages) :
    Waits scope candidates (stage.cursor scope number child) (stage.waiting scope number below) left
      (stages ++ [(stage, number)])

/-- The events over which a waiting stack begins again: the scan starts over. -/
def available (candidates : List Value) (left : Option (List Event)) : List Event :=
  left.getD (candidates.map .ok)

theorem waits_start (scope : Scope) (candidates : List Value) (stages : Numbered) :
    Waits scope candidates (stack scope candidates stages) (stack scope candidates stages).start
      none stages := by
  induction stages using List.reverseRecOn with
  | nil => exact .scan none
  | append_singleton stages last ih =>
    obtain ⟨stage, number⟩ := last
    rw [stack_append, Stage.start_eq_waiting]
    exact .waiting stage number ih

namespace Waits

variable {cursor : Cursor} {state : cursor.State} {left : Option (List Event)} {stages : Numbered}

theorem next_of_waiting (h : Waits scope candidates cursor state left stages)
    (hstages : stages ≠ []) (before : Trace) :
    cursor.next ⟨state, before⟩ = .error .notInitialised ⟨state, before⟩ := by
  cases h with
  | scan => exact absurd rfl hstages
  | begun => exact absurd rfl hstages
  | waiting stage number h => exact stage.next_waiting

theorem init_of_fault (h : Waits scope candidates cursor state left stages) {error : QueryError}
    (hfault : faultOf? stages = some error) (before : Trace) :
    cursor.init ⟨state, before⟩ = .error error ⟨state, before⟩ := by
  induction h with
  | scan => cases hfault
  | begun => cases hfault
  | waiting stage number h ih =>
    rw [faultOf?_append] at hfault
    cases hown : stage.fault? with
    | some own =>
      rw [hown] at hfault
      obtain rfl : own = error := by simpa using hfault
      exact Stage.init_of_fault hown
    | none =>
      rw [hown, Option.none_or] at hfault
      exact Stage.init_of_error hown (ih hfault)

/-- What beginning again comes to: the stack gives what its stages make of what is available, or it
stops at the first stage that fails, where it goes on waiting. -/
theorem init_of_faultless [scope.environment.registry.EvaluatesArguments]
    (h : Waits scope candidates cursor state left stages) (hfault : faultOf? stages = none) :
    match beginAll scope (available candidates left) stages with
    | .ok given => ∃ last trace,
      cursor.Gives (fun state => left ≠ none ∨ stages ≠ [] → Begun cursor state) last given ∧
      ∀ before, cursor.init ⟨state, before⟩ = .ok () ⟨last, before ++ trace⟩
    | .error stall => ∃ last trace,
      Waits scope candidates cursor last
        (if left = none ∧ stall.waiting.length =
          stages.length then none else some stall.left) stall.waiting ∧
      ∀ before, cursor.init ⟨state, before⟩ = .error stall.error ⟨last, before ++ trace⟩ := by
  induction h with
  | scan state =>
    refine ⟨some candidates, .empty, ?_, fun before => ?_⟩
    · exact (scan_gives candidates candidates (Nat.le_refl _)).imp fun _ _ h => by simp at h
    · rw [Trace.append_empty]
      rfl
  | @begun cursor state events h =>
    refine ⟨state, .empty, h.imp fun _ hbegun _ => hbegun, fun before => ?_⟩
    rw [Trace.append_empty]
    exact h.kept_state before
  | @waiting child below left stages stage number h ih =>
    rw [faultOf?_append, Option.or_eq_none_iff] at hfault
    obtain ⟨hown, hbelow⟩ := hfault
    have ih := ih hbelow
    rw [beginAll_append]
    cases hbegin : beginAll scope (available candidates left) stages with
    | error stall =>
      -- The stages below stall, and this one goes on waiting above them.
      rw [hbegin] at ih
      obtain ⟨last, trace, hwaits, hinit⟩ := ih
      refine ⟨stage.waiting scope number last, trace, ?_,
        fun before => Stage.init_of_error hown (hinit before)⟩
      have hsame : (stall.waiting ++ [(stage, number)]).length =
        (stages ++ [(stage, number)]).length ↔
          stall.waiting.length = stages.length := by simp
      simp only [hsame]
      exact .waiting stage number hwaits
    | ok given =>
      rw [hbegin] at ih
      obtain ⟨middle, trace, hgives, hinit⟩ := ih
      have hbegins := Stage.begins scope number hown hgives
      rw [Stage.Begins] at hbegins
      simp only [beginAll]
      cases hopened : stage.opened scope number given with
      | mk result leftover =>
        rw [hopened] at hbegins
        cases result with
        | ok events =>
          obtain ⟨last, trace', hlast, hstage⟩ := hbegins
          refine ⟨last, trace ++ trace', hlast.imp fun _ hbegun _ => hbegun, fun before => ?_⟩
          rw [hstage _ _ _ (hinit before), Trace.append_assoc]
        | error error =>
          obtain ⟨last, trace', hlast, hstage⟩ := hbegins
          refine ⟨stage.waiting scope number last, trace ++ trace', ?_, fun before => ?_⟩
          · have hnone : [(stage, number)].length = (stages ++ [(stage, number)]).length ↔
                stages = [] := by simp
            simp only [hnone]
            -- A scan starts over when it is begun again. Any other cursor goes on where this stage
            -- left it.
            by_cases hscan : left = none ∧ stages = []
            · rw [if_pos hscan]
              obtain ⟨rfl, hnil⟩ := hscan
              cases h with
              | scan => exact .waiting stage number (.scan last)
              | waiting => exact absurd hnil (by simp)
            · rw [if_neg hscan]
              refine .waiting stage number (.begun (hlast.imp fun _ hkept => hkept ?_))
              exact not_and_or.mp hscan
          · rw [hstage _ _ _ (hinit before), Trace.append_assoc]

end Waits

end Cursor

end ObjectQuery
