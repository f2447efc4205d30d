import ObjectQuery.Cursor.Range
import ObjectQuery.Cursor.Row
import ObjectQuery.Proofs.Cursor.Event
import ObjectQuery.Proofs.Cursor.Selection

/-!
The stages that give as they read: what each makes of the events of the cursor below it.
-/

namespace ObjectQuery.Cursor

variable {scope : Scope} {stage : Nat} {child : Cursor} {kept : child.State → Prop}
  {below : child.State} {events : List Event}

/-! ### Selections -/

/-- The events that a selection makes of those below it. -/
def selected (scope : Scope) (stage : Nat) (condition : Expr) : List Event → List Event
  | [] => []
  | .error error :: rest => .error error :: selected scope stage condition rest
  | .ok candidate :: rest =>
    match keeps scope stage condition candidate with
    | .error error => .error (.evaluation error) :: selected scope stage condition rest
    | .ok true => .ok candidate :: selected scope stage condition rest
    | .ok false => selected scope stage condition rest

theorem selected_evaluated {condition : Expr} {events : List Event}
    (h : Event.Evaluated events) : Event.Evaluated (selected scope stage condition events) := by
  induction events with
  | nil => exact h
  | cons event rest ih =>
    cases event with
    | error error =>
      rw [Event.evaluated_error] at h
      rw [selected, Event.evaluated_error]
      exact ⟨h.1, ih h.2⟩
    | ok candidate =>
      have ih := ih (Event.evaluated_ok.mp h)
      rw [selected]
      cases keeps scope stage condition candidate with
      | error error => exact Event.evaluated_error.mpr ⟨⟨error, rfl⟩, ih⟩
      | ok kept =>
        cases kept with
        | true => exact Event.evaluated_ok.mpr ih
        | false => exact ih

theorem values_selected_sublist (scope : Scope) (stage : Nat) (condition : Expr)
    (events : List Event) :
    (Event.values (selected scope stage condition events)).Sublist (Event.values events) := by
  induction events with
  | nil => exact List.Sublist.refl _
  | cons event rest ih =>
    cases event with
    | error error => exact ih
    | ok candidate =>
      rw [selected, Event.values_ok]
      split
      · exact ih.cons _
      · exact ih.cons_cons _
      · exact ih.cons _

theorem length_values_selected_le (scope : Scope) (stage : Nat) (condition : Expr)
    (events : List Event) :
    (Event.values (selected scope stage condition events)).length ≤
      (Event.values events).length :=
  (values_selected_sublist scope stage condition events).length_le

theorem nextSatisfying_fuel [scope.environment.registry.EvaluatesArguments] {condition : Expr}
    (h : child.Gives kept below events) {fuel fuel' : Nat}
    (hfuel : (Event.values events).length < fuel) (hfuel' : (Event.values events).length < fuel')
    (own : Option Context) (before : Trace) :
    nextSatisfying scope stage condition child fuel scope.context ⟨⟨below, own⟩, before⟩ =
      nextSatisfying scope stage condition child fuel' scope.context ⟨⟨below, own⟩, before⟩ := by
  induction h generalizing fuel fuel' own before with
  | ended _ _ _ hnext _ =>
    obtain ⟨fuel, rfl⟩ := Nat.exists_eq_add_one_of_ne_zero (Nat.ne_zero_of_lt hfuel)
    obtain ⟨fuel', rfl⟩ := Nat.exists_eq_add_one_of_ne_zero (Nat.ne_zero_of_lt hfuel')
    rw [nextSatisfying_of_none (hnext before), nextSatisfying_of_none (hnext before)]
  | error _ _ hnext _ _ _ =>
    obtain ⟨fuel, rfl⟩ := Nat.exists_eq_add_one_of_ne_zero (Nat.ne_zero_of_lt hfuel)
    obtain ⟨fuel', rfl⟩ := Nat.exists_eq_add_one_of_ne_zero (Nat.ne_zero_of_lt hfuel')
    rw [nextSatisfying_of_error (hnext before), nextSatisfying_of_error (hnext before)]
  | @value _ _ candidate rest _ _ hnext _ _ ih =>
    obtain ⟨fuel, rfl⟩ := Nat.exists_eq_add_one_of_ne_zero (Nat.ne_zero_of_lt hfuel)
    obtain ⟨fuel', rfl⟩ := Nat.exists_eq_add_one_of_ne_zero (Nat.ne_zero_of_lt hfuel')
    rw [Event.values_ok, List.length_cons] at hfuel hfuel'
    obtain ⟨trace, hstep⟩ := nextSatisfying_of_some scope stage condition child candidate
    rw [hstep fuel _ _ _ _ _ (hnext before), hstep fuel' _ _ _ _ _ (hnext before)]
    cases keeps scope stage condition candidate with
    | error error => rfl
    | ok b =>
      cases b with
      | true => rfl
      | false => exact ih (by omega) (by omega) _ _

theorem filter_gives [scope.environment.registry.EvaluatesArguments] (condition : Expr)
    (h : child.Gives kept below events) :
    (filter scope stage condition child).Gives (Begun _) ⟨below, some scope.context⟩
      (selected scope stage condition events) := by
  have hnext : ∀ below before, (filter scope stage condition child).next
      ⟨⟨below, some scope.context⟩, before⟩ =
      nextSatisfying scope stage condition child (child.remaining below + 1) scope.context
        ⟨⟨below, some scope.context⟩, before⟩ := fun _ _ => rfl
  have hbegun : ∀ below, (filter scope stage condition child).Begun
      ⟨below, some scope.context⟩ := fun _ _ => filter_init_of_begun rfl
  induction h with
  | @ended below last trace _ _ hchild hstays =>
    refine .ended trace (hbegun below) (hbegun last) (fun before => ?_) fun before => ?_
    · exact (hnext below before).trans (nextSatisfying_of_none (hchild before))
    · exact (hnext last before).trans (nextSatisfying_of_none (hstays before))
  | @error below after error rest trace _ hchild hleft _ ih =>
    refine .error trace (hbegun below) (fun before => ?_) ?_ ih
    · exact (hnext below before).trans (nextSatisfying_of_error (hchild before))
    · exact Nat.le_trans (length_values_selected_le scope stage condition rest) hleft
  | @value below after candidate rest trace _ hchild hleft hrest ih =>
    obtain ⟨trace', hstep⟩ := nextSatisfying_of_some scope stage condition child candidate
    have hshorter := length_values_selected_le scope stage condition rest
    rw [selected]
    cases hkeeps : keeps scope stage condition candidate with
    | error error =>
      refine .error (trace ++ trace') (hbegun below) (fun before => ?_) ?_ ih
      · rw [hnext, hstep _ _ _ _ _ _ (hchild before), hkeeps, ← Trace.append_assoc]
        rfl
      · exact Nat.le_trans hshorter (Nat.le_of_succ_le hleft)
    | ok b =>
      cases b with
      | true =>
        refine .value (trace ++ trace') (hbegun below) (fun before => ?_) ?_ ih
        · rw [hnext, hstep _ _ _ _ _ _ (hchild before), hkeeps, ← Trace.append_assoc]
          rfl
        · exact Nat.le_trans (Nat.succ_le_succ hshorter) hleft
      | false =>
        -- The rest is read with one unit of fuel less, which is still more than it has values.
        refine ih.of_next_eq (trace ++ trace') (hbegun below) (fun before => ?_) ?_
        · rw [hnext, hstep _ _ _ _ _ _ (hchild before), hkeeps, hnext, ← Trace.append_assoc]
          exact nextSatisfying_fuel hrest (by omega) (Nat.lt_succ_of_le hrest.length_le) _ _
        · exact Nat.le_trans hshorter (Nat.le_of_succ_le hleft)

/-! ### Ranges -/

/-- The events that a range makes of those below it. -/
def ranged : List Event → Range → List Event
  | [], _ => []
  | .error error :: rest, extent =>
    if extent.take = some 0 then [] else .error error :: ranged rest extent
  | .ok value :: rest, ⟨0, take⟩ =>
    if take = some 0 then [] else .ok value :: ranged rest ⟨0, take.map (· - 1)⟩
  | .ok _ :: rest, ⟨skip + 1, take⟩ => if take = some 0 then [] else ranged rest ⟨skip, take⟩

theorem ranged_sublist (events : List Event) (extent : Range) :
    (ranged events extent).Sublist events := by
  induction events generalizing extent with
  | nil => exact List.Sublist.refl _
  | cons event rest ih =>
    obtain ⟨skip, take⟩ := extent
    cases event with
    | error error =>
      rw [ranged]
      split
      · exact List.nil_sublist _
      · exact (ih _).cons_cons _
    | ok value =>
      cases skip with
      | zero =>
        rw [ranged]
        split
        · exact List.nil_sublist _
        · exact (ih _).cons_cons _
      | succ skip =>
        rw [ranged]
        split
        · exact List.nil_sublist _
        · exact (ih _).cons _

theorem ranged_evaluated {events : List Event} (extent : Range) (h : Event.Evaluated events) :
    Event.Evaluated (ranged events extent) :=
  fun error herror => h error ((ranged_sublist events extent).subset herror)

theorem values_ranged_sublist (events : List Event) (extent : Range) :
    (Event.values (ranged events extent)).Sublist (Event.values events) :=
  (ranged_sublist events extent).filterMap _

theorem length_values_ranged_le (events : List Event) (extent : Range) :
    (Event.values (ranged events extent)).length ≤ (Event.values events).length :=
  (values_ranged_sublist events extent).length_le

section RangeReading

variable {total : Range} {take : Option Nat} {last : child.State} {before after : Trace}

theorem range_next_of_none (extent : Range)
    (hnext : child.next ⟨below, before⟩ = .ok none ⟨last, after⟩) (htake : extent.take ≠ some 0) :
    (range total child).next ⟨⟨below, some extent⟩, before⟩ =
      .ok none ⟨⟨last, some extent⟩, after⟩ := by
  obtain ⟨skip, take⟩ := extent
  cases skip <;> simp only [range, Bind.bind, EStateM.bind, Work.own_apply, pure, EStateM.pure,
    if_neg htake, dropValues, Work.below, hnext, if_true, Bool.false_eq_true, if_false]

theorem range_next_of_error {error : QueryError} (extent : Range)
    (hnext : child.next ⟨below, before⟩ = .error error ⟨last, after⟩)
    (htake : extent.take ≠ some 0) :
    (range total child).next ⟨⟨below, some extent⟩, before⟩ =
      .error error ⟨⟨last, some extent⟩, after⟩ := by
  obtain ⟨skip, take⟩ := extent
  cases skip <;> simp only [range, Bind.bind, EStateM.bind, Work.own_apply, pure, EStateM.pure,
    if_neg htake, dropValues, Work.below, hnext, if_true]

theorem range_next_of_some {value : Value}
    (hnext : child.next ⟨below, before⟩ = .ok (some value) ⟨last, after⟩)
    (htake : take ≠ some 0) :
    (range total child).next ⟨⟨below, some ⟨0, take⟩⟩, before⟩ =
      .ok (some value) ⟨⟨last, some ⟨0, take.map (· - 1)⟩⟩, after⟩ := by
  simp only [range, Bind.bind, EStateM.bind, Work.own_apply, pure, EStateM.pure, if_neg htake,
    dropValues, Work.below, hnext, if_true]
  rfl

theorem range_next_of_dropped {value : Value} {skip : Nat}
    (hnext : child.next ⟨below, before⟩ = .ok (some value) ⟨last, after⟩)
    (htake : take ≠ some 0) :
    (range total child).next ⟨⟨below, some ⟨skip + 1, take⟩⟩, before⟩ =
      (range total child).next ⟨⟨last, some ⟨skip, take⟩⟩, after⟩ := by
  simp only [range, Bind.bind, EStateM.bind, Work.own_apply, if_neg htake,
    dropValues, Work.below, hnext]
  rfl

end RangeReading

theorem range_gives (total extent : Range) (h : child.Gives kept below events) :
    (range total child).Gives (Begun _) ⟨below, some extent⟩ (ranged events extent) := by
  have hbegun : ∀ below extent, (range total child).Begun ⟨below, some extent⟩ :=
    fun _ _ _ => Work.begun rfl
  have hspent : ∀ below skip,
      (range total child).Gives (Begun _) ⟨below, some ⟨skip, some 0⟩⟩ [] := by
    intro below skip
    refine .ended .empty (hbegun _ _) (hbegun below ⟨skip, some 0⟩) (fun before => ?_) fun _ => rfl
    rw [Trace.append_empty]
    rfl
  induction h generalizing extent with
  | @ended below last trace _ _ hchild hstays =>
    obtain ⟨skip, take⟩ := extent
    by_cases htake : take = some 0
    · subst htake
      exact hspent below skip
    · exact .ended trace (hbegun below _) (hbegun last ⟨skip, take⟩)
        (fun before => range_next_of_none _ (hchild before) htake)
        fun before => range_next_of_none _ (hstays before) htake
  | @error below after error rest trace _ hchild hleft _ ih =>
    obtain ⟨skip, take⟩ := extent
    rw [ranged]
    by_cases htake : take = some 0
    · subst htake
      rw [if_pos rfl]
      exact hspent below skip
    · rw [if_neg htake]
      exact .error trace (hbegun below _)
        (fun before => range_next_of_error _ (hchild before) htake)
        (Nat.le_trans (length_values_ranged_le rest _) hleft) (ih ⟨skip, take⟩)
  | @value below after value rest trace _ hchild hleft _ ih =>
    obtain ⟨skip, take⟩ := extent
    by_cases htake : take = some 0
    · subst htake
      cases skip <;> exact hspent below _
    · cases skip with
      | zero =>
        rw [ranged, if_neg htake]
        exact .value trace (hbegun below _)
          (fun before => range_next_of_some (hchild before) htake)
          (Nat.le_trans (Nat.succ_le_succ (length_values_ranged_le rest _)) hleft) (ih _)
      | succ skip =>
        rw [ranged, if_neg htake]
        exact (ih ⟨skip, take⟩).of_next_eq trace (hbegun below _)
          (fun before => range_next_of_dropped (hchild before) htake)
          (Nat.le_trans (length_values_ranged_le rest _) (Nat.le_of_succ_le hleft))

/-! ### Projections -/

/-- The row of a candidate, evaluated in a fresh context on the given turn. -/
def rowOf (scope : Scope) (stage : Nat) (results : List Expr) (turn : Nat) (candidate : Value) :
    Except EvalError Value :=
  (outcomeOf (rowValues scope results) (scope.context.setCandidate candidate)
    (stageSupply stage turn)).result.map rowValue

/-- The events that a projection makes of those below it. -/
def projected (scope : Scope) (stage : Nat) (results : List Expr) : Nat → List Event → List Event
  | _, [] => []
  | turn, .error error :: rest => .error error :: projected scope stage results turn rest
  | turn, .ok candidate :: rest =>
    (rowOf scope stage results turn candidate).mapError .evaluation ::
      projected scope stage results (turn + 1) rest

theorem projected_evaluated {results : List Expr} {events : List Event} (turn : Nat)
    (h : Event.Evaluated events) :
    Event.Evaluated (projected scope stage results turn events) := by
  induction events generalizing turn with
  | nil => exact h
  | cons event rest ih =>
    cases event with
    | error error =>
      rw [Event.evaluated_error] at h
      rw [projected, Event.evaluated_error]
      exact ⟨h.1, ih turn h.2⟩
    | ok candidate =>
      have ih := ih (turn + 1) (Event.evaluated_ok.mp h)
      rw [projected]
      cases rowOf scope stage results turn candidate with
      | error error => exact Event.evaluated_error.mpr ⟨⟨error, rfl⟩, ih⟩
      | ok row => exact Event.evaluated_ok.mpr ih

theorem length_values_projected_le (scope : Scope) (stage : Nat) (results : List Expr) (turn : Nat)
    (events : List Event) :
    (Event.values (projected scope stage results turn events)).length ≤
      (Event.values events).length := by
  induction events generalizing turn with
  | nil => simp [projected]
  | cons event rest ih =>
    cases event with
    | error error => simpa [projected] using ih turn
    | ok candidate =>
      rw [projected]
      cases rowOf scope stage results turn candidate with
      | error error => exact Nat.le_succ_of_le (ih (turn + 1))
      | ok row => exact Nat.succ_le_succ (ih (turn + 1))

theorem exists_rowOf_of_projected {results : List Expr} {turn : Nat} {events : List Event}
    {row : Value} (h : row ∈ Event.values (projected scope stage results turn events)) :
    ∃ turn, ∃ candidate ∈ Event.values events,
      rowOf scope stage results turn candidate = .ok row := by
  induction events generalizing turn with
  | nil => cases h
  | cons event rest ih =>
    cases event with
    | error error => exact ih h
    | ok candidate =>
      rw [projected] at h
      cases hrow : rowOf scope stage results turn candidate with
      | error error =>
        rw [hrow] at h
        obtain ⟨other, found, hfound, hother⟩ := ih h
        exact ⟨other, found, List.mem_cons_of_mem _ hfound, hother⟩
      | ok first =>
        rw [hrow] at h
        rcases List.mem_cons.mp h with rfl | h
        · exact ⟨turn, candidate, List.mem_cons_self, hrow⟩
        · obtain ⟨other, found, hfound, hother⟩ := ih h
          exact ⟨other, found, List.mem_cons_of_mem _ hfound, hother⟩

theorem rowValues_steady (scope : Scope) [scope.environment.registry.EvaluatesArguments]
    (results : List Expr) : Steady (rowValues scope results) :=
  .mapM (fun e => e.evaluateValue_steady scope.environment) results

theorem clearCandidate_setCandidate (scope : Scope) (candidate : Value) :
    (scope.context.setCandidate candidate).clearCandidate = scope.context := by
  simp [Scope.context, Context.ofParameters, Context.setCandidate, Context.setState,
    Context.clearCandidate, Bindings.insert, Bindings.erase]

section ProjectReading

variable {results : List Expr} {last : child.State} {before after : Trace}

theorem project_next_of_none (standing : Projecting)
    (hnext : child.next ⟨below, before⟩ = .ok none ⟨last, after⟩) :
    (project scope stage results child).next ⟨⟨below, some standing⟩, before⟩ =
      .ok none ⟨⟨last, some standing⟩, after⟩ := by
  simp only [project, Bind.bind, EStateM.bind, Work.own_apply, pure, EStateM.pure, Work.below,
    hnext]

theorem project_next_of_error {error : QueryError} (standing : Projecting)
    (hnext : child.next ⟨below, before⟩ = .error error ⟨last, after⟩) :
    (project scope stage results child).next ⟨⟨below, some standing⟩, before⟩ =
      .error error ⟨⟨last, some standing⟩, after⟩ := by
  simp only [project, Bind.bind, EStateM.bind, Work.own_apply, Work.below,
    hnext]

theorem project_next_of_some (scope : Scope) [scope.environment.registry.EvaluatesArguments]
    (stage : Nat) (results : List Expr) (child : Cursor) (turn : Nat) (candidate : Value) :
    ∃ trace, ∀ below before last between,
      child.next ⟨below, before⟩ = .ok (some candidate) ⟨last, between⟩ →
      (project scope stage results child).next ⟨⟨below, some ⟨scope.context, turn⟩⟩, before⟩ =
        match rowOf scope stage results turn candidate with
        | .error error => .error (.evaluation error)
          ⟨⟨last, some ⟨scope.context, turn + 1⟩⟩, between ++ trace⟩
        | .ok row => .ok (some row)
          ⟨⟨last, some ⟨scope.context, turn + 1⟩⟩, between ++ trace⟩ := by
  obtain ⟨trace, made, hsettles⟩ := (rowValues_steady scope results).settles
    (scope.context.setCandidate candidate) (stageSupply stage turn)
  refine ⟨trace, fun below before last between hnext => ?_⟩
  have hevaluating := Work.evaluating_of_settles hsettles
    (⟨⟨last, some ⟨scope.context, turn⟩⟩, between⟩ :
      Progress (Layer child.State (Option Projecting)))
  simp only [project, Bind.bind, EStateM.bind, Work.own_apply, pure, EStateM.pure, Work.below,
    hnext, hevaluating, Work.setOwn_apply, clearCandidate_setCandidate, rowOf]
  cases (outcomeOf (rowValues scope results) (scope.context.setCandidate candidate)
    (stageSupply stage turn)).result <;> rfl

end ProjectReading

theorem project_gives [scope.environment.registry.EvaluatesArguments] (results : List Expr)
    (turn : Nat) (h : child.Gives kept below events) :
    (project scope stage results child).Gives (Begun _) ⟨below, some ⟨scope.context, turn⟩⟩
      (projected scope stage results turn events) := by
  have hbegun : ∀ below standing,
      (project scope stage results child).Begun ⟨below, some standing⟩ :=
    fun _ _ _ => Work.begun rfl
  induction h generalizing turn with
  | @ended below last trace _ _ hchild hstays =>
    exact .ended trace (hbegun below _) (hbegun last ⟨scope.context, turn⟩)
      (fun before => project_next_of_none _ (hchild before))
      fun before => project_next_of_none _ (hstays before)
  | @error below after error rest trace _ hchild hleft _ ih =>
    exact .error trace (hbegun below _) (fun before => project_next_of_error _ (hchild before))
      (Nat.le_trans (length_values_projected_le scope stage results turn rest) hleft) (ih turn)
  | @value below after candidate rest trace _ hchild hleft _ ih =>
    obtain ⟨trace', hstep⟩ := project_next_of_some scope stage results child turn candidate
    have hshorter := length_values_projected_le scope stage results (turn + 1) rest
    rw [projected]
    cases hrow : rowOf scope stage results turn candidate with
    | error error =>
      refine .error (trace ++ trace') (hbegun below _) (fun before => ?_) ?_ (ih (turn + 1))
      · rw [hstep _ _ _ _ (hchild before), hrow, ← Trace.append_assoc]
      · exact Nat.le_trans hshorter (Nat.le_of_succ_le hleft)
    | ok row =>
      refine .value (trace ++ trace') (hbegun below _) (fun before => ?_) ?_ (ih (turn + 1))
      · rw [hstep _ _ _ _ (hchild before), hrow, ← Trace.append_assoc]
      · exact Nat.le_trans (Nat.succ_le_succ hshorter) hleft

end ObjectQuery.Cursor
