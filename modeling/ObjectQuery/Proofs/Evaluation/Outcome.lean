import ObjectQuery.Evaluation.Machine

/-!
What a computation on the machine comes to, apart from the operands below it and from what was
recorded before it. Main statement: computations compose by their outcomes.
-/

namespace ObjectQuery

theorem Except.bind_eq_ok {ε α β : Type} {x : Except ε α} {f : α → Except ε β} {b : β} :
    x.bind f = .ok b ↔ ∃ a, x = .ok a ∧ f a = .ok b := by
  cases x <;> simp [Except.bind]

namespace Trace

instance : Append Trace := ⟨fun first second =>
  ⟨first.warnings ++ second.warnings, first.loads + second.loads⟩⟩

theorem append_def (first second : Trace) :
    first ++ second = ⟨first.warnings ++ second.warnings, first.loads + second.loads⟩ := rfl

@[simp] theorem append_empty (trace : Trace) : trace ++ empty = trace := by
  simp [append_def, empty]

@[simp] theorem empty_append (trace : Trace) : empty ++ trace = trace := by
  simp [append_def, empty]

theorem append_assoc (first second third : Trace) :
    first ++ second ++ third = first ++ (second ++ third) := by
  simp [append_def, Nat.add_assoc]

theorem warn_eq_append (trace : Trace) (warning : Warning) :
    trace.warn warning = trace ++ ⟨[warning], 0⟩ := by
  simp [append_def, warn]

theorem countLoad_eq_append (trace : Trace) : trace.countLoad = trace ++ ⟨[], 1⟩ := by
  simp [append_def, countLoad]

end Trace

/-- A result, the context and the supply at the end, and what was recorded on the way. -/
structure Outcome (ε α : Type) where
  result : Except ε α
  context : Context
  trace : Trace
  supply : InstanceId

/-- The computation comes to an outcome, whatever operands and records it finds. The operands stay
below what an interrupted computation leaves, and a computation that ends leaves none. -/
def Settles {ε α : Type} (run : EStateM ε Machine α) (context : Context) (supply : InstanceId)
    (outcome : Outcome ε α) : Prop :=
  ∃ leftover, ∀ stack trace, run ⟨context, stack, trace, supply⟩ =
    match outcome.result with
    | .ok a => .ok a ⟨outcome.context, stack, trace ++ outcome.trace, outcome.supply⟩
    | .error e =>
      .error e ⟨outcome.context, leftover ++ stack, trace ++ outcome.trace, outcome.supply⟩

namespace Settles

variable {ε α β : Type} {run : EStateM ε Machine α} {next : α → EStateM ε Machine β}
  {context middle last : Context} {supply supply' supply'' : InstanceId} {trace trace' : Trace}

theorem pure (a : α) :
    Settles (pure a : EStateM ε Machine α) context supply ⟨.ok a, context, .empty, supply⟩ :=
  ⟨[], fun _ _ => by rw [Trace.append_empty]; rfl⟩

theorem throw (e : ε) :
    Settles (throw e : EStateM ε Machine α) context supply ⟨.error e, context, .empty, supply⟩ :=
  ⟨[], fun _ _ => by rw [Trace.append_empty]; rfl⟩

theorem bind {a : α} {result : Except ε β}
    (hrun : Settles run context supply ⟨.ok a, middle, trace, supply'⟩)
    (hnext : Settles (next a) middle supply' ⟨result, last, trace', supply''⟩) :
    Settles (run >>= next) context supply ⟨result, last, trace ++ trace', supply''⟩ := by
  obtain ⟨_, hrun⟩ := hrun
  obtain ⟨leftover, hnext⟩ := hnext
  refine ⟨leftover, fun stack before => ?_⟩
  have h : (run >>= next) ⟨context, stack, before, supply⟩ =
      next a ⟨middle, stack, before ++ trace, supply'⟩ := by
    simp only [Bind.bind, EStateM.bind, hrun]
  rw [h, hnext, Trace.append_assoc]

theorem bind_error {e : ε}
    (hrun : Settles run context supply ⟨.error e, middle, trace, supply'⟩) :
    Settles (run >>= next) context supply ⟨.error e, middle, trace, supply'⟩ := by
  obtain ⟨leftover, hrun⟩ := hrun
  refine ⟨leftover, fun stack before => ?_⟩
  simp only [Bind.bind, EStateM.bind, hrun]

theorem readContext {next : Context → Eval α} {outcome : Outcome Halt α}
    (h : Settles (next context) context supply outcome) :
    Settles (Eval.context >>= next) context supply outcome := h

theorem mapContext {f : Context → Context} (h : f context = last) :
    Settles (modify (Machine.mapContext f) : EStateM ε Machine Unit) context supply
      ⟨.ok (), last, .empty, supply⟩ :=
  ⟨[], fun _ _ => by rw [Trace.append_empty, ← h]; rfl⟩

theorem warn (warning : Warning) :
    Settles (modify fun machine => machine.warn warning : EStateM ε Machine Unit) context supply
      ⟨.ok (), context, ⟨[warning], 0⟩, supply⟩ :=
  ⟨[], fun _ _ => by rw [← Trace.warn_eq_append]; rfl⟩

theorem beginTurn (turn : Nat) :
    Settles (modify fun machine => machine.beginTurn turn : EStateM ε Machine Unit) context supply
      ⟨.ok (), context, .empty, ⟨supply.stage, turn, 0⟩⟩ :=
  ⟨[], fun _ _ => by rw [Trace.append_empty]; rfl⟩

end Settles

/-- What a computation comes to on an empty machine. -/
def outcomeOf {ε α : Type} (run : EStateM ε Machine α) (context : Context) (supply : InstanceId) :
    Outcome ε α :=
  match run (Machine.start context .empty supply) with
  | .ok a machine => ⟨.ok a, machine.context, machine.trace, machine.supply⟩
  | .error e machine => ⟨.error e, machine.context, machine.trace, machine.supply⟩

theorem Settles.outcomeOf_eq {ε α : Type} {run : EStateM ε Machine α} {context : Context}
    {supply : InstanceId} {outcome : Outcome ε α} (h : Settles run context supply outcome) :
    outcomeOf run context supply = outcome := by
  obtain ⟨leftover, h⟩ := h
  obtain ⟨result, last, trace, after⟩ := outcome
  cases result <;> simp [outcomeOf, Machine.start, h]

/-- What a computation comes to on a machine, and the machine that it leaves. -/
def completion {ε α : Type} (run : EStateM ε Machine α) (machine : Machine) :
    Except ε α × Machine :=
  match run machine with
  | .ok a after => (.ok a, after)
  | .error e after => (.error e, after)

theorem Settles.of_completion {ε α : Type} {run : EStateM ε Machine α} {context last : Context}
    {supply supply' : InstanceId} {result : Except ε α} {trace : Trace}
    (h : ∀ stack before, completion run ⟨context, stack, before, supply⟩ =
      (result, ⟨last, stack, before ++ trace, supply'⟩)) :
    Settles run context supply ⟨result, last, trace, supply'⟩ := by
  refine ⟨[], fun stack before => ?_⟩
  have hrun := h stack before
  rw [completion] at hrun
  split at hrun
  all_goals
    obtain ⟨rfl, rfl⟩ := Prod.mk.inj hrun
    assumption

theorem Settles.completion_eq {ε α : Type} {run : EStateM ε Machine α} {context : Context}
    {supply : InstanceId} {outcome : Outcome ε α} (h : Settles run context supply outcome)
    (stack : List Operand) (trace : Trace) :
    ∃ leftover, completion run ⟨context, stack, trace, supply⟩ =
      (outcome.result,
        ⟨outcome.context, leftover ++ stack, trace ++ outcome.trace, outcome.supply⟩) := by
  obtain ⟨leftover, h⟩ := h
  obtain ⟨result, last, added, after⟩ := outcome
  cases result with
  | ok a => exact ⟨[], by simp [completion, h]⟩
  | error e => exact ⟨leftover, by simp [completion, h]⟩

end ObjectQuery
