import ObjectQuery.Proofs.Evaluation.Casting
import ObjectQuery.Proofs.Evaluation.Sequence
import ObjectQuery.Proofs.Method.Calling

/-!
Expressions that come to values one after another, and what becomes of them as arguments. Main
statements: where they are pushed, their values are on the stack, and where they are asked for, they
are the values; either way the machine is the one that they leave when they are evaluated by
themselves.
-/

namespace ObjectQuery

namespace Expr

variable {env : Environment} {machine after : Machine} {e : Expr} {es : List Expr}
  {operand : Operand} {value : Value} {values : List Value}

theorem result_of_completion [env.registry.EvaluatesArguments]
    (h : completion (e.evaluate env) machine = (.ok (.resolved operand), after)) :
    e.result env .operand machine = .ok operand after := by
  obtain ⟨context, stack, trace, supply⟩ := machine
  obtain ⟨result, added, last, hsettles⟩ := e.settles_result env .operand context supply
  have hcompletion :=
    completion_evaluate_of_settles (evaluate_settles_of_result hsettles) stack trace
  rw [h, Prod.mk.injEq] at hcompletion
  obtain ⟨hresult, hafter⟩ := hcompletion
  cases result with
  | ok other =>
    obtain rfl : operand = other := Resolution.resolved.inj (Except.ok.inj hresult)
    obtain ⟨leftover, hrun⟩ := hsettles
    rw [hrun, hafter]
  | error halt => cases halt <;> cases hresult

theorem result_onStack [env.registry.EvaluatesArguments]
    (h : e.result env .operand machine = .ok operand after) (stack : List Operand) :
    e.result env .operand { machine with stack := stack } =
      .ok operand { after with stack := stack } := by
  obtain ⟨context, below, trace, supply⟩ := machine
  obtain ⟨result, added, last, leftover, hrun⟩ := e.settles_result env .operand context supply
  rw [hrun] at h
  cases result with
  | error halt => cases h
  | ok other =>
    simp only [EStateM.Result.ok.injEq] at h
    obtain ⟨rfl, rfl⟩ := h
    exact hrun stack trace

/-- Evaluated one after another, the expressions come to values. -/
def ComeTo (env : Environment) (es : List Expr) (machine : Machine) (values : List Value)
    (after : Machine) : Prop :=
  evaluateEach env es machine = (values.map fun value => .ok (.resolved (.value value)), after)

theorem comeTo_nil_iff : ComeTo env [] machine values after ↔ values = [] ∧ machine = after := by
  cases values <;> simp [ComeTo, evaluateEach]

theorem comeTo_cons_iff : ComeTo env (e :: es) machine values after ↔
    ∃ value rest middle, values = value :: rest ∧
      completion (e.evaluate env) machine = (.ok (.resolved (.value value)), middle) ∧
      ComeTo env es middle rest after := by
  simp only [ComeTo, evaluateEach, Prod.mk.injEq]
  constructor
  · rintro ⟨hvalues, hafter⟩
    cases values with
    | nil => cases hvalues
    | cons value rest =>
      obtain ⟨hvalue, hrest⟩ := List.cons.inj hvalues
      exact ⟨value, rest, _, rfl, Prod.ext hvalue rfl, Prod.ext hrest hafter⟩
  · rintro ⟨value, rest, middle, rfl, hfirst, hrest⟩
    rw [hfirst, hrest]
    exact ⟨rfl, rfl⟩

theorem ComeTo.length_eq (h : ComeTo env es machine values after) : values.length = es.length := by
  induction es generalizing machine values with
  | nil => rw [(comeTo_nil_iff.mp h).1]; rfl
  | cons e es ih =>
    obtain ⟨value, rest, middle, rfl, -, hrest⟩ := comeTo_cons_iff.mp h
    exact congrArg (· + 1) (ih hrest)

theorem ComeTo.stack_eq [env.registry.EvaluatesArguments] (h : ComeTo env es machine values after) :
    after.stack = machine.stack := by
  induction es generalizing machine values with
  | nil => rw [(comeTo_nil_iff.mp h).2]
  | cons e es ih =>
    obtain ⟨value, rest, middle, rfl, hfirst, hrest⟩ := comeTo_cons_iff.mp h
    rw [ih hrest, stack_of_result (result_of_completion hfirst)]

theorem ComeTo.visits [env.registry.EvaluatesArguments] (h : ComeTo env es machine values after)
    (stack : List Operand) :
    (arguments env es).forM Argument.visit { machine with stack := stack } =
      .ok () { after with stack := (values.map Operand.value).reverse ++ stack } := by
  induction es generalizing machine values stack with
  | nil =>
    obtain ⟨rfl, rfl⟩ := comeTo_nil_iff.mp h
    rfl
  | cons e es ih =>
    obtain ⟨value, rest, middle, rfl, hfirst, hrest⟩ := comeTo_cons_iff.mp h
    have hvisit : (e.argument env).visit { machine with stack := stack } =
        .ok () { middle with stack := .value value :: stack } := by
      simp only [argument, Bind.bind, EStateM.bind,
        result_onStack (result_of_completion hfirst) stack]
      rfl
    have hforM : (arguments env (e :: es)).forM Argument.visit =
        (e.argument env).visit >>= fun _ => (arguments env es).forM Argument.visit := rfl
    rw [hforM]
    simp only [Bind.bind, EStateM.bind, hvisit]
    rw [ih hrest]
    simp

theorem ComeTo.values_arguments [env.registry.EvaluatesArguments]
    (h : ComeTo env es machine values after) :
    Argument.values (arguments env es) machine = .ok (some values) after := by
  induction es generalizing machine values with
  | nil =>
    obtain ⟨rfl, rfl⟩ := comeTo_nil_iff.mp h
    rfl
  | cons e es ih =>
    obtain ⟨value, rest, middle, rfl, hfirst, hrest⟩ := comeTo_cons_iff.mp h
    have harguments : arguments env (e :: es) = e.argument env :: arguments env es := rfl
    rw [harguments, Argument.values, operand_argument]
    simp only [Bind.bind, EStateM.bind, result_of_completion hfirst, ih hrest]
    rfl

end Expr

end ObjectQuery
