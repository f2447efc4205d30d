import ObjectQuery.Proofs.Evaluation.Expression

/-!
What evaluating whole expressions comes to, as functions of the context and the supply.
-/

namespace ObjectQuery

variable {A : Agreement} {env : Environment} {context context' : Context}
  {supply supply' : InstanceId}

open Agreement

namespace Expr

theorem evaluate_settles_of_result {e : Expr} {result : Except Halt Operand} {trace : Trace}
    (h : Settles (e.result env .operand) context supply ⟨result, context, trace, supply'⟩) :
    Settles (e.evaluate env) context supply
      ⟨Resolution.ofResult result, context, trace, supply'⟩ :=
  .of_completion h.completion_resolve

/-- An unbound variable was not bound. -/
def StopsOn (A : Agreement) (context : Context) (result : Except EvalError Resolution) : Prop :=
  ∀ missing, result = .ok (.unbound missing) →
    A.names missing.name ∧ context.binding? missing.name = none

theorem evaluate_agrees (henv : env.Respects A.rename) {e : Expr} (h : e.All A.Admits)
    (hc : A.Contexts context context') (hs : A.Supplies supply supply') :
    ∃ result trace made,
      Settles (e.evaluate env) context supply ⟨result, context, trace, supply.advance made⟩ ∧
      Settles (e.evaluate env) context' supply'
        ⟨result.map (Resolution.rename A.rename), context', trace, supply'.advance made⟩ ∧
      StopsOn A context result := by
  obtain ⟨result, trace, made, hfirst, hsecond, hstops⟩ :=
    (result_agrees henv h .operand context context' hc).settles hs
  have hsecond := evaluate_settles_of_result hsecond
  rw [Resolution.ofResult_image] at hsecond
  refine ⟨_, trace, made, evaluate_settles_of_result hfirst, hsecond, ?_⟩
  intro missing hmissing
  cases result with
  | ok operand => simp [Resolution.ofResult] at hmissing
  | error halt =>
    cases halt with
    | unbound other => exact hstops missing (by simpa [Resolution.ofResult] using hmissing)
    | fatal error => simp [Resolution.ofResult] at hmissing

/-- What evaluating an expression comes to. -/
def resolution (env : Environment) (e : Expr) (context : Context) (supply : InstanceId) :
    Except EvalError Resolution :=
  (outcomeOf (e.evaluate env) context supply).result

theorem resolution_of_result {e : Expr} {result : Except Halt Operand} {trace : Trace}
    (h : Settles (e.result env .operand) context supply ⟨result, context, trace, supply'⟩) :
    e.resolution env context supply = Resolution.ofResult result := by
  rw [resolution, (evaluate_settles_of_result h).outcomeOf_eq]

theorem admits_refl (e : Expr) :
    e.All (Agreement.refl fun name => name ∈ Cursor.variableNames e).Admits := by
  refine e.all_variableNames.imp fun node hnode => ?_
  cases node with
  | literal value => exact Value.rename_id value
  | var name => exact hnode name rfl
  | invoke receiver method args declared => cases receiver <;> simp [Admits, Agreement.refl]
  | _ => trivial

theorem evaluate_refl (env : Environment) [env.registry.EvaluatesArguments] (e : Expr)
    (context : Context) (supply : InstanceId) :
    ∃ trace made, Settles (e.evaluate env) context supply
      ⟨e.resolution env context supply, context, trace, supply.advance made⟩ ∧
      StopsOn (.refl fun name => name ∈ Cursor.variableNames e) context
        (e.resolution env context supply) := by
  obtain ⟨result, trace, made, hsettles, _, hstops⟩ :=
    evaluate_agrees (Environment.Respects.refl env) e.admits_refl (.refl _ context)
      (.refl _ supply)
  have hresult : e.resolution env context supply = result := by
    rw [resolution, hsettles.outcomeOf_eq]
  rw [hresult]
  exact ⟨trace, made, hsettles, hstops⟩

theorem evaluate_settles (env : Environment) [env.registry.EvaluatesArguments] (e : Expr)
    (context : Context) (supply : InstanceId) :
    ∃ trace made, Settles (e.evaluate env) context supply
      ⟨e.resolution env context supply, context, trace, supply.advance made⟩ := by
  obtain ⟨trace, made, hsettles, _⟩ := e.evaluate_refl env context supply
  exact ⟨trace, made, hsettles⟩

theorem completion_evaluate_eq_truncate (env : Environment) (e : Expr) (machine : Machine) :
    (completion (e.evaluate env) machine).2 =
      (completion (e.visit env) machine).2.truncate machine.depth := by
  simp only [completion, evaluate, Eval.resolve]
  cases e.visit env machine with
  | ok _ after =>
    simp only
    generalize after.depth - machine.depth = size
    generalize after.stack = operands
    obtain _ | _ | size := size <;> cases operands <;> rfl
  | error halt after => cases halt <;> rfl

theorem completion_evaluate_of_settles {e : Expr} {result : Except EvalError Resolution}
    {last : Context} {trace : Trace}
    (h : Settles (e.evaluate env) context supply ⟨result, last, trace, supply'⟩)
    (stack : List Operand) (before : Trace) :
    completion (e.evaluate env) ⟨context, stack, before, supply⟩ =
      (result, ⟨last, stack, before ++ trace, supply'⟩) := by
  obtain ⟨leftover, heq⟩ := h.completion_eq stack before
  have hcut := e.completion_evaluate_eq_truncate env ⟨context, stack, before, supply⟩
  rw [heq] at hcut
  have hlength := congrArg (fun machine : Machine => machine.stack.length) hcut
  simp only [Machine.truncate, Machine.depth, List.length_append, List.length_drop] at hlength
  obtain rfl : leftover = [] := List.length_eq_zero_iff.mp (by omega)
  exact heq

/-- An evaluation gives the context and the operands back, however it ends, and its result is the
one that it has on an empty machine. -/
theorem completion_evaluate (env : Environment) [env.registry.EvaluatesArguments] (e : Expr)
    (machine : Machine) :
    ∃ trace made, completion (e.evaluate env) machine =
      (e.resolution env machine.context machine.supply,
        ⟨machine.context, machine.stack, machine.trace ++ trace, machine.supply.advance made⟩) := by
  obtain ⟨trace, made, hsettles⟩ := e.evaluate_settles env machine.context machine.supply
  exact ⟨trace, made, completion_evaluate_of_settles hsettles machine.stack machine.trace⟩

theorem unbound_of_resolution [env.registry.EvaluatesArguments] {e : Expr}
    {missing : Unbound}
    (h : e.resolution env context supply = .ok (.unbound missing)) :
    missing.name ∈ Cursor.variableNames e ∧ context.binding? missing.name = none := by
  obtain ⟨_, _, _, hstops⟩ := e.evaluate_refl env context supply
  exact hstops missing h

end Expr

/-- The computation gives its context back, and no more than its context and its supply decides
what it comes to. -/
def Steady {α : Type} (run : EStateM EvalError Machine α) : Prop :=
  ∀ context supply, ∃ result trace after,
    Settles run context supply ⟨result, context, trace, after⟩

namespace Steady

variable {α β : Type} {run : EStateM EvalError Machine α}

theorem settles (h : Steady run) (context : Context) (supply : InstanceId) :
    ∃ trace after, Settles run context supply
      ⟨(outcomeOf run context supply).result, context, trace, after⟩ := by
  obtain ⟨result, trace, after, hsettles⟩ := h context supply
  rw [hsettles.outcomeOf_eq]
  exact ⟨trace, after, hsettles⟩

theorem pure (a : α) : Steady (pure a) := fun _ supply => ⟨.ok a, .empty, supply, .pure a⟩

theorem bind {next : α → EStateM EvalError Machine β} (h : Steady run)
    (hnext : ∀ a, Steady (next a)) : Steady (run >>= next) := by
  intro context supply
  obtain ⟨result, trace, after, hrun⟩ := h context supply
  cases result with
  | error error => exact ⟨.error error, trace, after, hrun.bind_error⟩
  | ok a =>
    obtain ⟨result, trace', last, hrest⟩ := hnext a context after
    exact ⟨result, trace ++ trace', last, hrun.bind hrest⟩

theorem result_bind {next : α → EStateM EvalError Machine β} (h : Steady run)
    (hnext : ∀ a, Steady (next a)) (context : Context) (supply : InstanceId) :
    ∃ after, (outcomeOf (run >>= next) context supply).result =
      (outcomeOf run context supply).result.bind fun a =>
        (outcomeOf (next a) context after).result := by
  obtain ⟨trace, after, hrun⟩ := h.settles context supply
  refine ⟨after, ?_⟩
  cases hresult : (outcomeOf run context supply).result with
  | error error =>
    rw [hresult] at hrun
    rw [hrun.bind_error.outcomeOf_eq]
    rfl
  | ok a =>
    rw [hresult] at hrun
    obtain ⟨trace', last, hrest⟩ := (hnext a).settles context after
    rw [(hrun.bind hrest).outcomeOf_eq]
    rfl

theorem mapM {f : β → EStateM EvalError Machine α} (h : ∀ b, Steady (f b)) (items : List β) :
    Steady (items.mapM f) := by
  induction items with
  | nil =>
    rw [List.mapM_nil]
    exact pure []
  | cons item rest ih =>
    rw [List.mapM_cons]
    exact (h item).bind fun a => ih.bind fun as => pure (a :: as)

end Steady

namespace Expr

theorem evaluate_steady (env : Environment) [env.registry.EvaluatesArguments] (e : Expr) :
    Steady (e.evaluate env) := by
  intro context supply
  obtain ⟨trace, made, h⟩ := e.evaluate_settles env context supply
  exact ⟨_, trace, _, h⟩

theorem evaluateValue_steady (env : Environment) [env.registry.EvaluatesArguments] (e : Expr) :
    Steady (e.evaluateValue env) := by
  refine (e.evaluate_steady env).bind fun resolution => ?_
  cases resolution with
  | resolved operand => exact .pure _
  | unbound missing =>
    exact Steady.bind (fun _ _ => ⟨_, _, _, .warn _⟩) fun _ => .pure _

end Expr

end ObjectQuery
