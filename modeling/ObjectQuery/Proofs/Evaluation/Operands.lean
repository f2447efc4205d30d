import ObjectQuery.Proofs.Evaluation.Resolution

/-!
Operators before an expression and between two. Main statements: where the expressions have values,
an operator before one comes to what it makes of the value, a comparison to what it makes of the two
values, and arithmetic to what it computes from them.
-/

namespace ObjectQuery

variable {env : Environment} {context last : Context}
  {supply supply' supply'' supply''' : InstanceId} {trace trace' trace'' : Trace}

namespace BinaryOperator

variable {op : BinaryOperator}

/-- Whether an operator evaluates both operands, the left one first. The others take a type on the
right, which is not evaluated. -/
def evaluatesBoth : BinaryOperator → Bool
  | .is | .isNot | .cast => false
  | _ => true

theorem evaluatesBoth_of_isComparison (h : op.isComparison) : op.evaluatesBoth := by
  cases op <;> first | rfl | cases h

theorem evaluatesBoth_of_arithmetic? {arithmetic : Value.Arithmetic}
    (h : op.arithmetic? = some arithmetic) : op.evaluatesBoth := by
  cases op <;> first | rfl | cases h

end BinaryOperator

section Operands

variable {left right : Eval Operand} {op : BinaryOperator} {l r : Operand} {halt : Halt}

/-- Evaluates both operands of an operator and applies it to them. -/
def bothOperands (op : BinaryOperator) (left right : Eval Operand) : Eval Operand := do
  Eval.push (← left)
  Eval.push (← right)
  let r ← Eval.pop
  let l ← Eval.pop
  op.apply l r

theorem bothOperands_eq (op : BinaryOperator) (left right : Eval Operand) :
    bothOperands op left right =
      ((do Eval.push (← left)) >>= fun _ => (do Eval.push (← right)) >>= fun _ => do
        let r ← Eval.pop
        let l ← Eval.pop
        op.apply l r) := by
  simp only [bothOperands, bind_assoc]

theorem Settles.bothOperands_apply {result : Except Halt Operand}
    (hleft : Settles left context supply ⟨.ok l, context, trace, supply'⟩)
    (hright : Settles right context supply' ⟨.ok r, context, trace', supply''⟩)
    (happly : Settles (op.apply l r) context supply'' ⟨result, last, trace'', supply'''⟩) :
    Settles (bothOperands op left right) context supply
      ⟨result, last, trace ++ trace' ++ trace'', supply'''⟩ := by
  rw [bothOperands_eq, ← bind_assoc]
  exact ((Pushes.visit hleft).append (Pushes.visit hright)).take (fun _ _ => rfl) happly

theorem Settles.bothOperands_left_error
    (hleft : Settles left context supply ⟨.error halt, context, trace, supply'⟩) :
    Settles (bothOperands op left right) context supply
      ⟨.error halt, context, trace, supply'⟩ := by
  rw [bothOperands_eq]
  exact (Pushes.visit hleft).take_error

theorem Settles.bothOperands_right_error
    (hleft : Settles left context supply ⟨.ok l, context, trace, supply'⟩)
    (hright : Settles right context supply' ⟨.error halt, context, trace', supply''⟩) :
    Settles (bothOperands op left right) context supply
      ⟨.error halt, context, trace ++ trace', supply''⟩ := by
  rw [bothOperands_eq, ← bind_assoc]
  exact ((Pushes.visit hleft).append (Pushes.visit hright)).take_error

end Operands

namespace Expr

variable {e left right : Expr} {operand other : Operand} {op : BinaryOperator} {a b : Value}

/-- In the context the expression comes to an operand and leaves the context as it was, whatever
objects were made before. -/
def Evaluates (env : Environment) (context : Context) (e : Expr) (operand : Operand) : Prop :=
  ∀ supply, ∃ trace after, Settles (e.result env .operand) context supply
    ⟨.ok operand, context, trace, after⟩

theorem Evaluates.resolution_eq (h : e.Evaluates env context operand) (supply : InstanceId) :
    e.resolution env context supply = .ok (.resolved operand) := by
  obtain ⟨trace, after, hsettles⟩ := h supply
  exact resolution_of_result hsettles

theorem evaluates_iff [env.registry.EvaluatesArguments] :
    e.Evaluates env context operand ↔
      ∀ supply, e.resolution env context supply = .ok (.resolved operand) := by
  refine ⟨Evaluates.resolution_eq, fun h supply => ?_⟩
  obtain ⟨result, trace, made, hsettles, -, -⟩ :=
    (result_agrees (Environment.Respects.refl env) e.admits_refl .operand context context
      (.refl _ context)).settles (.refl _ supply)
  have hresolution := h supply
  rw [resolution_of_result hsettles] at hresolution
  refine ⟨trace, supply.advance made, ?_⟩
  cases result with
  | ok value =>
    obtain rfl : value = operand := Resolution.resolved.inj (Except.ok.inj hresolution)
    exact hsettles
  | error halt => cases halt <;> cases hresolution

theorem Evaluates.unique (h : e.Evaluates env context operand)
    (h' : e.Evaluates env context other) : operand = other := by
  have heq := (h.resolution_eq default).symm.trans (h'.resolution_eq default)
  exact Resolution.resolved.inj (Except.ok.inj heq)

/-! ### Expressions that have values -/

theorem evaluates_literal (value : Value) : (literal value).Evaluates env context (.value value) :=
  fun supply => ⟨.empty, supply, .pure _⟩

theorem evaluates_parameter (name : String) :
    (parameter name).Evaluates env context (.value (context.parameter name)) :=
  fun supply => ⟨.empty, supply, .readContext (.pure _)⟩

theorem evaluates_var {name : String} {value : Value} (h : context.binding? name = some value) :
    (var name).Evaluates env context (.value value) := by
  intro supply
  refine ⟨.empty, supply, ?_⟩
  rw [result, variableOperand]
  refine .readContext ?_
  rw [h]
  exact .pure _

/-! ### Operators -/

theorem result_unary (op : UnaryOperator) (e : Expr) :
    (unary op e).result env .operand = (do
      Eval.ofExcept (op.checkShape e)
      Eval.ofExcept (op.apply (← e.result env .operand))) := by
  cases op <;> simp only [result, operandOf_eq] <;> rfl

theorem Evaluates.unary {op : UnaryOperator} (hshape : op.checkShape e = .ok ())
    (h : e.Evaluates env context operand) (happly : op.apply operand = .ok other) :
    (unary op e).Evaluates env context other := by
  intro supply
  obtain ⟨trace, after, hsettles⟩ := h supply
  have hresult : Settles (Eval.ofExcept (op.apply operand)) context after
      ⟨.ok other, context, .empty, after⟩ := by
    rw [happly]
    exact .pure other
  rw [result_unary, hshape]
  exact ⟨_, after, .bind (.pure ()) (hsettles.bind hresult)⟩

theorem result_binary (h : op.evaluatesBoth) :
    (binary op left right).result env .operand =
      bothOperands op (left.result env .operand) (right.result env .operand) := by
  cases op <;> first | rfl | cases h

section Resolution

variable {l r : Operand} {halt : Halt}

theorem binary_resolution {result : Except Halt Operand} (hop : op.evaluatesBoth)
    (hleft : Settles (left.result env .operand) context supply ⟨.ok l, context, trace, supply'⟩)
    (hright : Settles (right.result env .operand) context supply'
      ⟨.ok r, context, trace', supply''⟩)
    (happly : Settles (op.apply l r) context supply'' ⟨result, context, trace'', supply'''⟩) :
    (binary op left right).resolution env context supply = Resolution.ofResult result := by
  have hboth := hleft.bothOperands_apply hright happly
  rw [← result_binary hop] at hboth
  exact resolution_of_result hboth

theorem binary_resolution_of_left (hop : op.evaluatesBoth)
    (hleft : Settles (left.result env .operand) context supply
      ⟨.error halt, context, trace, supply'⟩) :
    (binary op left right).resolution env context supply = Resolution.ofResult (.error halt) := by
  have hboth : Settles (bothOperands op (left.result env .operand) (right.result env .operand))
      context supply _ := hleft.bothOperands_left_error
  rw [← result_binary hop] at hboth
  exact resolution_of_result hboth

theorem binary_resolution_of_right (hop : op.evaluatesBoth)
    (hleft : Settles (left.result env .operand) context supply ⟨.ok l, context, trace, supply'⟩)
    (hright : Settles (right.result env .operand) context supply'
      ⟨.error halt, context, trace', supply''⟩) :
    (binary op left right).resolution env context supply = Resolution.ofResult (.error halt) := by
  have hboth : Settles (bothOperands op (left.result env .operand) (right.result env .operand))
      context supply _ := hleft.bothOperands_right_error hright
  rw [← result_binary hop] at hboth
  exact resolution_of_result hboth

end Resolution

theorem Evaluates.binary {l r : Operand} (hop : op.evaluatesBoth)
    (hleft : left.Evaluates env context l) (hright : right.Evaluates env context r)
    (happly : ∀ supply, ∃ trace after, Settles (op.apply l r) context supply
      ⟨.ok operand, context, trace, after⟩) :
    (binary op left right).Evaluates env context operand := by
  intro supply
  obtain ⟨trace, supply', hl⟩ := hleft supply
  obtain ⟨trace', supply'', hr⟩ := hright supply'
  obtain ⟨trace'', after, ho⟩ := happly supply''
  rw [result_binary hop]
  exact ⟨_, after, hl.bothOperands_apply hr ho⟩

theorem Evaluates.comparison (hop : op.isComparison)
    (hleft : left.Evaluates env context (.value a))
    (hright : right.Evaluates env context (.value b)) :
    (Expr.binary op left right).Evaluates env context (op.compareValues a b) := by
  refine .binary (BinaryOperator.evaluatesBoth_of_isComparison hop) hleft hright fun supply =>
    ⟨.empty, supply, ?_⟩
  cases op <;> first | exact .pure _ | cases hop

end Expr

end ObjectQuery
