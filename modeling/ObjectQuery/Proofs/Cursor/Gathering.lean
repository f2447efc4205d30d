import ObjectQuery.Cursor.SortKey
import ObjectQuery.Proofs.Cursor.Streaming

/-!
The stages that read everything before they give anything. Reading stops at the first error, and
what comes behind it is left below.
-/

namespace ObjectQuery.Cursor

variable {scope : Scope} {stage : Nat} {child : Cursor} {kept : child.State → Prop}
  {below : child.State} {events : List Event}

/-- Makes something of every value up to the first error. The events behind an error are left. -/
def gather {α : Type} (f : Value → Except QueryError α) :
    List Event → Except QueryError (List α) × List Event
  | [] => (.ok [], [])
  | .error error :: rest => (.error error, rest)
  | .ok value :: rest =>
    match f value with
    | .error error => (.error error, rest)
    | .ok a => ((gather f rest).1.map (a :: ·), (gather f rest).2)

theorem gather_left_suffix {α : Type} (f : Value → Except QueryError α) (events : List Event) :
    (gather f events).2 <:+ events := by
  induction events with
  | nil => exact List.suffix_refl _
  | cons event rest ih =>
    cases event with
    | error error => exact List.suffix_cons _ _
    | ok value =>
      rw [gather]
      split
      · exact List.suffix_cons _ _
      · exact ih.trans (List.suffix_cons _ _)

theorem gather_evaluated {α : Type} {f : Value → Except QueryError α}
    (hf : ∀ value error, f value = .error error → ∃ e, error = .evaluation e)
    (h : Event.Evaluated events) {error : QueryError}
    (hgather : (gather f events).1 = .error error) :
    ∃ e, error = .evaluation e := by
  induction events with
  | nil => cases hgather
  | cons event rest ih =>
    cases event with
    | error error =>
      cases hgather
      exact (Event.evaluated_error.mp h).1
    | ok value =>
      rw [gather] at hgather
      cases hvalue : f value with
      | error error =>
        rw [hvalue] at hgather
        cases hgather
        exact hf value error hvalue
      | ok a =>
        rw [hvalue] at hgather
        cases hrest : (gather f rest).1 with
        | error error =>
          simp only [hrest, Except.map] at hgather
          cases hgather
          exact ih (Event.evaluated_ok.mp h) hrest
        | ok found =>
          simp only [hrest, Except.map] at hgather
          cases hgather

theorem gather_eq_ok {α : Type} {f : Value → Except QueryError α} {found : List α}
    (h : (gather f events).1 = .ok found) :
    ∃ values : List Value, events = values.map .ok ∧ values.map f = found.map .ok := by
  induction events generalizing found with
  | nil =>
    obtain rfl := Except.ok.inj h
    exact ⟨[], rfl, rfl⟩
  | cons event rest ih =>
    cases event with
    | error error => cases h
    | ok value =>
      rw [gather] at h
      cases hvalue : f value with
      | error error =>
        rw [hvalue] at h
        cases h
      | ok a =>
        rw [hvalue] at h
        cases hrest : (gather f rest).1 with
        | error error =>
          simp only [hrest, Except.map] at h
          cases h
        | ok others =>
          simp only [hrest, Except.map] at h
          obtain rfl := Except.ok.inj h
          obtain ⟨values, rfl, hothers⟩ := ih hrest
          exact ⟨value :: values, rfl, by rw [List.map_cons, List.map_cons, hvalue, hothers]⟩

/-! ### Sorts -/

/-- The keys of a candidate, evaluated in a fresh context. -/
def keysOf (scope : Scope) (stage : Nat) (keys : List SortKey) (candidate : Value) :
    Except EvalError (List Value) :=
  (outcomeOf (keys.mapM fun key => key.expr.evaluateValue scope.environment)
    (scope.context.setCandidate candidate) (stageSupply stage 0)).result

/-- A candidate with its keys. -/
def keyed (scope : Scope) (stage : Nat) (keys : List SortKey) (candidate : Value) :
    Except QueryError SortKey.Keyed :=
  match keysOf scope stage keys candidate with
  | .ok values => .ok ⟨values, candidate⟩
  | .error error => .error (.evaluation error)

theorem keyed_evaluated {keys : List SortKey} (candidate : Value) (error : QueryError)
    (h : keyed scope stage keys candidate = .error error) : ∃ e, error = .evaluation e := by
  rw [keyed] at h
  cases hkeys : keysOf scope stage keys candidate with
  | ok values =>
    rw [hkeys] at h
    cases h
  | error e =>
    rw [hkeys] at h
    cases h
    exact ⟨e, rfl⟩

theorem candidates_of_keyed {keys : List SortKey} {rows : List SortKey.Keyed} {values : List Value}
    (h : values.map (keyed scope stage keys) = rows.map .ok) :
    rows.map SortKey.Keyed.candidate = values := by
  induction values generalizing rows with
  | nil => rw [List.map_eq_nil_iff.mp h.symm]; rfl
  | cons value rest ih =>
    cases rows with
    | nil => cases h
    | cons row others =>
      rw [List.map_cons, List.map_cons, List.cons.injEq] at h
      obtain ⟨hrow, hrest⟩ := h
      rw [keyed] at hrow
      cases hkeys : keysOf scope stage keys value with
      | error error =>
        rw [hkeys] at hrow
        cases hrow
      | ok found =>
        rw [hkeys] at hrow
        obtain rfl := Except.ok.inj hrow
        rw [List.map_cons, ih hrest]

theorem readKeyed_of_some (scope : Scope) [scope.environment.registry.EvaluatesArguments]
    (stage : Nat) (keys : List SortKey) (child : Cursor) (candidate : Value) :
    ∃ trace, ∀ {τ : Type} (fuel : Nat) (context : Context) below (own : τ) before last between,
      scope.context.Rebound context →
      child.next ⟨below, before⟩ = .ok (some candidate) ⟨last, between⟩ →
      readKeyed scope stage keys child (fuel + 1) context ⟨⟨below, own⟩, before⟩ =
        match keyed scope stage keys candidate with
        | .error error => .error error ⟨⟨last, own⟩, between ++ trace⟩
        | .ok row =>
          match readKeyed scope stage keys child fuel (scope.context.setCandidate candidate)
            ⟨⟨last, own⟩, between ++ trace⟩ with
          | .ok rows after => .ok (row :: rows) after
          | .error error after => .error error after := by
  have hsteady : Steady (keys.mapM fun key => key.expr.evaluateValue scope.environment) :=
    .mapM (fun key => key.expr.evaluateValue_steady scope.environment) keys
  obtain ⟨trace, made, hsettles⟩ :=
    hsteady.settles (scope.context.setCandidate candidate) (stageSupply stage 0)
  refine ⟨trace, fun {τ} fuel context below own before last between hcontext hnext => ?_⟩
  have hevaluating := Work.evaluating_of_settles hsettles
    (⟨⟨last, own⟩, between⟩ : Progress (Layer child.State τ))
  simp only [readKeyed, Bind.bind, EStateM.bind, Work.below, hnext, hcontext.setCandidate,
    hevaluating, keyed, keysOf]
  cases (outcomeOf (keys.mapM fun key => key.expr.evaluateValue scope.environment)
    (scope.context.setCandidate candidate) (stageSupply stage 0)).result with
  | error error => rfl
  | ok values =>
    simp only [Work.ofExcept, pure, EStateM.pure]
    cases readKeyed scope stage keys child fuel (scope.context.setCandidate candidate)
      (⟨⟨last, own⟩, between ++ trace⟩ : Progress (Layer child.State τ)) <;> rfl

theorem readKeyed_of_gives (scope : Scope) [scope.environment.registry.EvaluatesArguments]
    (stage : Nat) (keys : List SortKey) (h : child.Gives kept below events) :
    ∃ last trace, child.Gives kept last (gather (keyed scope stage keys) events).2 ∧
      ∀ {τ : Type} (fuel : Nat) (context : Context) (own : τ) before,
        (Event.values events).length < fuel → scope.context.Rebound context →
        readKeyed scope stage keys child fuel context ⟨⟨below, own⟩, before⟩ =
          match (gather (keyed scope stage keys) events).1 with
          | .ok rows => .ok rows ⟨⟨last, own⟩, before ++ trace⟩
          | .error error => .error error ⟨⟨last, own⟩, before ++ trace⟩ := by
  induction h with
  | @ended below last trace _ hlast hnext hstays =>
    refine ⟨last, trace, .ended_of_stays hlast hstays, ?_⟩
    intro τ fuel context own before hfuel _
    obtain ⟨fuel, rfl⟩ := Nat.exists_eq_add_one_of_ne_zero (Nat.ne_zero_of_lt hfuel)
    simp only [readKeyed, Bind.bind, EStateM.bind, Work.below, hnext]
    rfl
  | @error below after error rest trace _ hnext _ hrest _ =>
    refine ⟨after, trace, hrest, ?_⟩
    intro τ fuel context own before hfuel _
    obtain ⟨fuel, rfl⟩ := Nat.exists_eq_add_one_of_ne_zero (Nat.ne_zero_of_lt hfuel)
    simp only [readKeyed, Bind.bind, EStateM.bind, Work.below, hnext]
    rfl
  | @value below after candidate rest trace _ hnext _ hrest ih =>
    obtain ⟨trace', hstep⟩ := readKeyed_of_some scope stage keys child candidate
    obtain ⟨last, trace'', hlast, hread⟩ := ih
    rw [gather]
    cases hkeyed : keyed scope stage keys candidate with
    | error error =>
      -- The reading stops here, and the rest stays below for the next one.
      refine ⟨after, trace ++ trace', hrest, ?_⟩
      intro τ fuel context own before hfuel hcontext
      obtain ⟨fuel, rfl⟩ := Nat.exists_eq_add_one_of_ne_zero (Nat.ne_zero_of_lt hfuel)
      rw [hstep _ _ _ _ _ _ _ hcontext (hnext before), hkeyed, ← Trace.append_assoc]
    | ok row =>
      refine ⟨last, trace ++ trace' ++ trace'', hlast, ?_⟩
      intro τ fuel context own before hfuel hcontext
      obtain ⟨fuel, rfl⟩ := Nat.exists_eq_add_one_of_ne_zero (Nat.ne_zero_of_lt hfuel)
      rw [Event.values_ok, List.length_cons] at hfuel
      rw [hstep _ _ _ _ _ _ _ hcontext (hnext before), hkeyed]
      simp only
      rw [hread fuel _ own _ (by omega) (.inr ⟨candidate, rfl⟩), ← Trace.append_assoc,
        ← Trace.append_assoc]
      cases (gather (keyed scope stage keys) rest).1 <;> rfl

theorem sort_gives (keys : List SortKey) (below : child.State) (values : List Value) :
    (sort scope stage keys child).Gives (Begun _) ⟨below, some values⟩ (values.map .ok) := by
  have hbegun : ∀ values, (sort scope stage keys child).Begun ⟨below, some values⟩ :=
    fun _ _ => Work.begun rfl
  induction values with
  | nil => exact .ended_of_stays (hbegun []) fun _ => rfl
  | cons value rest ih =>
    have hnext : ∀ before,
        (sort scope stage keys child).next ⟨⟨below, some (value :: rest)⟩, before⟩ =
        .ok (some value) ⟨⟨below, some rest⟩, before⟩ := fun _ => rfl
    refine .value .empty (hbegun _) (fun before => ?_) ?_ ih
    · rw [Trace.append_empty]
      exact hnext before
    · simp [sort]

/-! ### Aggregates -/

/-- The row over all members, evaluated in a fresh context that has them as its result set. -/
def totalRow (scope : Scope) (stage : Nat) (results : List Expr) (members : List Value) :
    Except EvalError Value :=
  (outcomeOf (rowValues scope results) { scope.context with resultSet := some members }
    (stageSupply stage 0)).result.map rowValue

theorem readMembers_of_gives (h : child.Gives kept below events) :
    ∃ last trace, child.Gives kept last (gather .ok events).2 ∧
      ∀ {τ : Type} (fuel : Nat) (own : τ) before, (Event.values events).length < fuel →
        readMembers child fuel ⟨⟨below, own⟩, before⟩ =
          match (gather .ok events).1 with
          | .ok members => .ok members ⟨⟨last, own⟩, before ++ trace⟩
          | .error error => .error error ⟨⟨last, own⟩, before ++ trace⟩ := by
  induction h with
  | @ended below last trace _ hlast hnext hstays =>
    refine ⟨last, trace, .ended_of_stays hlast hstays, ?_⟩
    intro τ fuel own before hfuel
    obtain ⟨fuel, rfl⟩ := Nat.exists_eq_add_one_of_ne_zero (Nat.ne_zero_of_lt hfuel)
    simp only [readMembers, Bind.bind, EStateM.bind, Work.below, hnext]
    rfl
  | @error below after error rest trace _ hnext _ hrest _ =>
    refine ⟨after, trace, hrest, ?_⟩
    intro τ fuel own before hfuel
    obtain ⟨fuel, rfl⟩ := Nat.exists_eq_add_one_of_ne_zero (Nat.ne_zero_of_lt hfuel)
    simp only [readMembers, Bind.bind, EStateM.bind, Work.below, hnext]
    rfl
  | @value below after candidate rest trace _ hnext _ _ ih =>
    obtain ⟨last, trace', hlast, hread⟩ := ih
    refine ⟨last, trace ++ trace', hlast, ?_⟩
    intro τ fuel own before hfuel
    obtain ⟨fuel, rfl⟩ := Nat.exists_eq_add_one_of_ne_zero (Nat.ne_zero_of_lt hfuel)
    rw [Event.values_ok, List.length_cons] at hfuel
    simp only [readMembers, Bind.bind, EStateM.bind, Work.below, hnext,
      hread fuel own _ (Nat.lt_of_succ_lt_succ hfuel), gather, ← Trace.append_assoc]
    cases (gather (Except.ok : Value → Except QueryError Value) rest).1 <;> rfl

theorem aggregate_gives (results : List Expr) (below : child.State) (row : Value) :
    (aggregate scope stage results child).Gives (Begun _) ⟨below, some (some row)⟩ [.ok row] := by
  have hbegun : ∀ row, (aggregate scope stage results child).Begun ⟨below, some row⟩ :=
    fun _ _ => Work.begun rfl
  have hnext : ∀ before, (aggregate scope stage results child).next
      ⟨⟨below, some (some row)⟩, before⟩ = .ok (some row) ⟨⟨below, some none⟩, before⟩ :=
    fun _ => rfl
  refine .value .empty (hbegun _) (fun before => ?_) ?_ (.ended_of_stays (hbegun none) fun _ => rfl)
  · rw [Trace.append_empty]
    exact hnext before
  · simp [aggregate]

end ObjectQuery.Cursor
