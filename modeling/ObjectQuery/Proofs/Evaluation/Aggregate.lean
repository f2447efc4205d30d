import ObjectQuery.Proofs.Evaluation.Operation

/-!
Aggregates agree with themselves where the result sets correspond, and give the candidate back as
they found it.
-/

namespace ObjectQuery

variable {A : Agreement} {context context' : Context}

open Agreement

/-! ### Totals and extremes -/

theorem map_rename_of_isNumeric (ρ : InstanceId → InstanceId) {values : List Value}
    (h : ∀ value ∈ values, value.isNumeric) : values.map (.rename ρ) = values :=
  (List.map_congr_left fun value hvalue => Value.rename_of_isNumeric ρ (h value hvalue)).trans
    (List.map_id' values)

theorem distinctValues_rename {ρ : InstanceId → InstanceId} (hρ : Function.Injective ρ)
    (values : List Value) :
    distinctValues (values.map (.rename ρ)) = (distinctValues values).map (.rename ρ) := by
  let keep := fun (kept : List Value) value =>
    if kept.any fun earlier => earlier.strictEq value then kept else kept ++ [value]
  have hfold : ∀ kept : List Value,
      (values.map (.rename ρ)).foldl keep (kept.map (.rename ρ)) =
        (values.foldl keep kept).map (.rename ρ) := by
    induction values with
    | nil => exact fun _ => rfl
    | cons value rest ih =>
      intro kept
      have hkeep : keep (kept.map (.rename ρ)) (value.rename ρ) =
          (keep kept value).map (.rename ρ) := by
        simp only [keep, List.any_map, Function.comp_def, Value.strictEq_rename hρ]
        split <;> simp
      rw [List.map_cons, List.foldl_cons, List.foldl_cons, hkeep, ih]
  exact hfold []

namespace AggregateKind

theorem requireNumeric_rename (ρ : InstanceId → InstanceId) (kind : AggregateKind)
    (values : List Value) :
    kind.requireNumeric (values.map (.rename ρ)) = kind.requireNumeric values := by
  simp only [requireNumeric, List.find?_map, Function.comp_def, Value.isNumeric_rename]
  cases values.find? fun value => !value.isNumeric with
  | none => rfl
  | some value => simp

theorem isNumeric_of_requireNumeric {kind : AggregateKind} {values : List Value}
    (h : kind.requireNumeric values = .ok ()) : ∀ value ∈ values, value.isNumeric := by
  rw [requireNumeric] at h
  split at h
  · cases h
  · rename_i hnone
    simpa using List.find?_eq_none.mp hnone

theorem total_isNumeric (values : List Value) : (total values).isNumeric := by
  rw [total, integerTotal]
  split
  · rfl
  · split
    · rfl
    · split <;> rfl

theorem mean_isNumeric (values : List Value) : (mean values).isNumeric := by
  rw [mean]
  split <;> rfl

theorem better_rename (ρ : InstanceId → InstanceId) (kind : AggregateKind) (wanted : Ordering)
    (best value : Value) :
    kind.better wanted (best.rename ρ) (value.rename ρ) =
      (kind.better wanted best value).map (.rename ρ) := by
  simp only [better, Value.compare?_rename, Value.describeType_rename]
  cases value.compare? best with
  | none => rfl
  | some order =>
    simp only
    split <;> rfl

theorem extreme_rename (ρ : InstanceId → InstanceId) (kind : AggregateKind) (wanted : Ordering)
    (values : List Value) :
    kind.extreme wanted (values.map (.rename ρ)) =
      (kind.extreme wanted values).map (.rename ρ) := by
  cases values with
  | nil => rfl
  | cons first rest =>
    simp only [List.map_cons, extreme]
    induction rest generalizing first with
    | nil => rfl
    | cons value rest ih =>
      simp only [List.map_cons, List.foldlM_cons, better_rename]
      cases kind.better wanted first value with
      | error error => rfl
      | ok best => exact ih best

theorem compute_numeric_rename (ρ : InstanceId → InstanceId) (kind : AggregateKind)
    {f : List Value → Value} (hf : ∀ values, (f values).isNumeric) (values : List Value) :
    (do
      if (values.map (Value.rename ρ)).isEmpty then return .null
      kind.requireNumeric (values.map (Value.rename ρ))
      return f (values.map (Value.rename ρ)) : Except EvalError Value) =
    (do
      if values.isEmpty then return .null
      kind.requireNumeric values
      return f values : Except EvalError Value).map (Value.rename ρ) := by
  simp only [List.isEmpty_map, requireNumeric_rename]
  split
  · rfl
  · cases hrequire : kind.requireNumeric values with
    | error error => rfl
    | ok _ =>
      rw [map_rename_of_isNumeric ρ (isNumeric_of_requireNumeric hrequire)]
      exact congrArg Except.ok (Value.rename_of_isNumeric ρ (hf values)).symm

theorem compute_rename (ρ : InstanceId → InstanceId) (kind : AggregateKind)
    (values : List Value) :
    kind.compute (values.map (.rename ρ)) = (kind.compute values).map (.rename ρ) := by
  simp only [compute, List.filter_map, Function.comp_def, Value.isNull_rename]
  cases kind with
  | count => simp [Except.map, Value.rename]
  | sum => exact compute_numeric_rename ρ sum total_isNumeric _
  | avg => exact compute_numeric_rename ρ avg mean_isNumeric _
  | min => exact extreme_rename ρ min .lt _
  | max => exact extreme_rename ρ max .gt _

end AggregateKind

/-! ### The candidate of the members -/

namespace Context

/-- A context that differs from the given one in its candidate at most. -/
def Rebound (context rebound : Context) : Prop :=
  rebound = context ∨ ∃ member, rebound = context.setCandidate member

theorem setCandidate_setCandidate (context : Context) (value other : Value) :
    (context.setCandidate value).setCandidate other = context.setCandidate other := by
  simp [setCandidate, setState, Bindings.insert_insert]

theorem Rebound.setCandidate {context rebound : Context} (h : context.Rebound rebound)
    (member : Value) : rebound.setCandidate member = context.setCandidate member := by
  rcases h with rfl | ⟨value, rfl⟩
  · rfl
  · exact context.setCandidate_setCandidate value member

theorem Rebound.restoreCandidate {context rebound : Context} (h : context.Rebound rebound) :
    rebound.restoreCandidate context.candidate? = context := by
  cases hcandidate : context.candidate? with
  | some value =>
    rw [Context.restoreCandidate, h.setCandidate]
    simp only [Context.setCandidate, setState, Bindings.insert_of_get?_eq_some hcandidate]
  | none =>
    have hnone := hcandidate
    rw [candidate?] at hnone
    rcases h with rfl | ⟨value, rfl⟩
    · simp only [Context.restoreCandidate, clearCandidate, Bindings.erase_of_get?_eq_none hnone]
    · simp only [Context.restoreCandidate, clearCandidate, Context.setCandidate, setState,
        Bindings.erase_insert_of_get?_eq_none value hnone]

theorem binding?_setState_self (context : Context) (name : String) (value : Value) :
    (context.setState name value).binding? name = some value := by
  simp [binding?, setState]

theorem binding?_setState_of_ne (context : Context) {name other : String} (value : Value)
    (h : name ≠ other) : (context.setState name value).binding? other = context.binding? other := by
  simp [binding?, setState, Bindings.get?_insert_of_ne _ value h]

theorem binding?_eq_none_of_setCandidate {context : Context} {value : Value} {name : String}
    (h : (context.setCandidate value).binding? name = none) : context.binding? name = none := by
  by_cases hname : context.candidateName = name
  · subst hname
    simp [setCandidate, binding?_setState_self] at h
  · rwa [setCandidate, binding?_setState_of_ne _ _ hname] at h

theorem eq_or_mem_of_setCandidate {context : Context} {candidate value : Value} {name : String}
    (h : value ∈ (context.setCandidate candidate).state.get? name) :
    value = candidate ∨ value ∈ context.state.get? name :=
  Bindings.eq_or_get?_of_insert h

theorem parameter_of_forall {context : Context} {p : Value → Prop} (hnull : p .null)
    (h : ∀ parameter ∈ context.parameters, p parameter.2) (name : String) :
    p (context.parameter name) := by
  rw [parameter]
  cases hvalue : context.parameters.get? name with
  | none => exact hnull
  | some value => exact h _ (Bindings.mem_of_get?_eq_some hvalue)

end Context

namespace Agreement

theorem Contexts.setState (hc : A.Contexts context context') (name : String) (value : Value) :
    A.Contexts (context.setState name value) (context'.setState name (value.rename A.rename)) where
  candidateName := hc.candidateName
  parameter := hc.parameter
  resultSet := hc.resultSet
  state := by
    intro other
    by_cases h : name = other
    · subst h
      simp [Context.setState]
    · simpa [Context.setState, Bindings.get?_insert_of_ne _ _ h] using hc.state other
  binding := by
    intro other hother
    by_cases h : name = other
    · subst h
      simp [Context.binding?_setState_self]
    · simpa [Context.binding?_setState_of_ne _ _ h] using hc.binding other hother

theorem Contexts.setCandidate (hc : A.Contexts context context') (member : Value) :
    A.Contexts (context.setCandidate member)
      (context'.setCandidate (member.rename A.rename)) := by
  rw [Context.setCandidate, Context.setCandidate, hc.candidateName]
  exact hc.setState context.candidateName member

end Agreement

theorem Settles.restoring {α : Type} {step : Eval α} {last : Context} {supply after : InstanceId}
    {result : Except Halt α} {trace : Trace} (hlast : context.Rebound last)
    (h : Settles step context supply ⟨result, last, trace, after⟩) :
    Settles (Eval.restoring step) context supply ⟨result, context, trace, after⟩ := by
  obtain ⟨leftover, h⟩ := h
  refine ⟨[], fun stack before => ?_⟩
  cases result with
  | ok a =>
    simp only [Eval.restoring, h]
    simp [Machine.truncate, Machine.depth, Machine.mapContext, hlast.restoreCandidate]
  | error halt =>
    simp only [Eval.restoring, h]
    simp [Machine.truncate, Machine.depth, Machine.mapContext, hlast.restoreCandidate]

namespace AggregateArgument

/-- The argument agrees with itself for every member that becomes the candidate. -/
def Agrees (A : Agreement) (context context' : Context) (argument : AggregateArgument) : Prop :=
  ∀ member : Value, A.Mirrors (context.setCandidate member)
    (context'.setCandidate (member.rename A.rename)) (Operand.rename A.rename) argument.operand
    argument.operand

variable {argument : AggregateArgument}

theorem collect_settles (h : argument.Agrees A context context') (members : List Value)
    {rebound rebound' : Context} (hrebound : context.Rebound rebound)
    (hrebound' : context'.Rebound rebound') (supply supply' : InstanceId) :
    ∃ result trace made last last', context.Rebound last ∧ context'.Rebound last' ∧
      A.Stops context result ∧
      Settles (argument.collect members) rebound supply
        ⟨result, last, trace, supply.advance made⟩ ∧
      (A.SuppliesNext made supply supply' →
        Settles (argument.collect (members.map (.rename A.rename))) rebound' supply'
          ⟨A.image (List.map (.rename A.rename)) result, last', trace, supply'.advance made⟩) := by
  induction members generalizing rebound rebound' supply supply' with
  | nil =>
    exact ⟨.ok [], .empty, 0, rebound, rebound', hrebound, hrebound', by simp [Stops], .pure [],
      fun _ => .pure []⟩
  | cons member rest ih =>
    have hset : Settles (Eval.modifyContext (·.setCandidate member)) rebound supply _ :=
      .mapContext (hrebound.setCandidate member)
    have hset' : Settles (Eval.modifyContext (·.setCandidate (member.rename A.rename))) rebound'
        supply' _ :=
      .mapContext (hrebound'.setCandidate (member.rename A.rename))
    obtain ⟨result, trace, made, hfirst, hsecond, hstops⟩ := h member supply supply'
    have hmember : context.Rebound (context.setCandidate member) := .inr ⟨member, rfl⟩
    have hmember' : context'.Rebound (context'.setCandidate (member.rename A.rename)) :=
      .inr ⟨member.rename A.rename, rfl⟩
    obtain ⟨result', trace', more, last, last', hlast, hlast', hstops', hrest, hrest'⟩ :=
      ih hmember hmember' (supply.advance made) (supply'.advance made)
    rw [InstanceId.advance_advance] at hrest hrest'
    simp only [List.map_cons, collect]
    cases result with
    | error halt =>
      -- The names that stop an evaluation must be unbound outside, where the candidate is another
      -- one.
      refine ⟨.error halt, _, made, _, _, hmember, hmember', ?_, hset.bind hfirst.bind_error,
        fun hs => hset'.bind (hsecond hs).bind_error⟩
      intro missing hmissing
      obtain ⟨hname, hbinding⟩ := hstops missing (by simpa using hmissing)
      exact ⟨hname, Context.binding?_eq_none_of_setCandidate hbinding⟩
    | ok operand =>
      cases operand with
      | unresolved =>
        exact ⟨result', _, made + more, last, last', hlast, hlast', hstops',
          hset.bind (hfirst.bind hrest),
          fun hs => hset'.bind ((hsecond hs.first).bind (hrest' hs.rest))⟩
      | value value =>
        cases result' with
        | ok values =>
          exact ⟨.ok (value :: values), _, made + more, last, last', hlast, hlast',
            by simp [Stops], hset.bind (hfirst.bind (hrest.bind (.pure _))),
            fun hs => hset'.bind ((hsecond hs.first).bind ((hrest' hs.rest).bind (.pure _)))⟩
        | error halt =>
          refine ⟨.error halt, _, made + more, last, last', hlast, hlast', ?_,
            hset.bind (hfirst.bind hrest.bind_error),
            fun hs => hset'.bind ((hsecond hs.first).bind (hrest' hs.rest).bind_error)⟩
          intro missing hmissing
          exact hstops' missing (by simpa using hmissing)

theorem collect_mirrors (h : argument.Agrees A context context') (members : List Value) :
    A.Mirrors context context' (List.map (.rename A.rename))
      (Eval.restoring (argument.collect members))
      (Eval.restoring (argument.collect (members.map (.rename A.rename)))) := by
  intro supply supply'
  obtain ⟨result, trace, made, last, last', hlast, hlast', hstops, hfirst, hsecond⟩ :=
    collect_settles h members (.inl rfl) (.inl rfl) supply supply'
  exact ⟨result, trace, made, hfirst.restoring hlast, fun hs => (hsecond hs).restoring hlast',
    hstops⟩

theorem select_rename (argument : AggregateArgument) (values : List Value) :
    argument.select (values.map (.rename A.rename)) =
      (argument.select values).map (.rename A.rename) := by
  simp only [select, distinctValues_rename A.injective]
  split <;> rfl

end AggregateArgument

theorem AggregateKind.evaluate_mirrors (kind : AggregateKind) {argument : AggregateArgument}
    (haggregates : A.aggregates) (hc : A.Contexts context context')
    (h : argument.Agrees A context context') :
    A.Mirrors context context' (Operand.rename A.rename) (kind.evaluate argument)
      (kind.evaluate argument) := by
  refine Mirrors.readContext ?_
  rw [hc.resultSet haggregates]
  cases context.resultSet with
  | none => exact Mirrors.unresolved _
  | some members =>
    refine (AggregateArgument.collect_mirrors h members).bind fun values => ?_
    refine (Mirrors.ofExcept (f := Value.rename A.rename) ?_).bind fun value => Mirrors.pure rfl
    rw [AggregateArgument.select_rename, compute_rename]

end ObjectQuery
