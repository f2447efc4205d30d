import ObjectQuery.Evaluation.Aggregate
import ObjectQuery.Evaluation.Environment
import ObjectQuery.Evaluation.Operation

/-!
Evaluation of expressions on the machine. A visit evaluates the parts of an expression, takes their
operands off the stack and pushes exactly one operand of its own.
-/

namespace ObjectQuery

/-- Where an expression stands: on its own, as the root of a path, or as the argument of an
aggregate. Casts are allowed at the root of a path alone, where also a variable without a value is
no reason to stop; distinct values can be asked for in the argument of an aggregate alone. -/
inductive Position where
  | operand
  | root
  | aggregated
deriving DecidableEq, Repr

/-- The value of a variable. One without a value stops the evaluation, except at the root of a
path. -/
def variableOperand (position : Position) (name : String) : Eval Operand := do
  match (← Eval.context).binding? name with
  | some value => return .value value
  | none =>
    if position = .root then Eval.unresolved (.unboundVariable name) else Eval.stopOn name none

/-- Evaluates a part and takes its operand off the stack again. -/
def operandOf (part : Eval Operand) : Eval Operand := do
  Eval.push (← part)
  Eval.pop

/-- Decides a branch by its condition, which must be a truth value. -/
def decideBranch (condition : Operand) (result otherwise : Eval Operand) : Eval Operand :=
  match condition with
  | .value (.boolean true) => result
  | .value (.boolean false) => otherwise
  | other => Eval.unresolved (.nonBooleanCaseCondition other.describeType)

namespace Expr

def isDistinct : Expr → Bool
  | unary .distinct _ => true
  | _ => false

mutual

/-- The operand of an expression in a place. -/
def result (env : Environment) : Expr → Position → Eval Operand
  | literal value, _ => return .value value
  | parameter name, _ => return .value ((← Eval.context).parameter name)
  | var name, position => variableOperand position name
  | path none segments, _ => env.path segments
  | path (some qualifier) segments, _ => do
    env.pathFrom (← result env qualifier .root) segments
  | binary op left right, position => do
    match op with
    | .cast =>
      if position = .root then
        let source ← result env left .root
        env.castTo (← Eval.ofExcept (env.typeOperand op right)) source
      else Eval.fail .bareCast
    | .is | .isNot =>
      let operand ← operandOf (result env left .operand)
      let target ← Eval.ofExcept (env.typeOperand op right)
      return .ofBool (env.isInstance operand target == (op == .is))
    | _ =>
      Eval.push (← result env left .operand)
      Eval.push (← result env right .operand)
      let right ← Eval.pop
      let left ← Eval.pop
      op.apply left right
  | unary op operand, position => do
    if op = .distinct && position = .aggregated then result env operand .operand
    else
      Eval.ofExcept (op.checkShape operand)
      Eval.ofExcept (op.apply (← operandOf (result env operand .operand)))
  | invoke none method args declared, _ =>
    match AggregateKind.ofName? method, aggregated? env args with
    | some kind, some argument => kind.evaluate argument
    | _, _ => env.callFunction ⟨none, method, arguments env args, declared⟩
  | invoke (some receiver) method args declared, _ => do
    match ← operandOf (result env receiver .operand) with
    | .value value =>
      let source := { expr := receiver, visit := do Eval.push (← result env receiver .operand) }
      env.callMethod value ⟨some source, method, arguments env args, declared⟩
    | .unresolved => return .unresolved
  | creator typeName args, _ => do
    let args := arguments env args
    args.forM Argument.visit
    match Environment.allValues (← Eval.popMany args.length) with
    | some values => env.create typeName values
    | none => return .unresolved
  | conditional branches otherwise, _ => firstBranch env branches (otherwiseOf env otherwise)
  | array elements, _ => do
    match ← elementValues env elements with
    | some values => return .value (.array values)
    | none => return .unresolved
termination_by structural e => e

/-- The arguments of a call, to be evaluated by the method. -/
def arguments (env : Environment) : List Expr → List Argument
  | [] => []
  | e :: rest =>
    { expr := e
      visit := do Eval.push (← result env e .operand) } :: arguments env rest
termination_by structural es => es

/-- The only argument of an aggregate. -/
def aggregated? (env : Environment) : List Expr → Option AggregateArgument
  | [e] => some ⟨e.isDistinct, operandOf (result env e .aggregated)⟩
  | _ => none
termination_by structural es => es

/-- The result of the first branch whose condition is true. -/
def firstBranch (env : Environment) : List (Expr × Expr) → Eval Operand → Eval Operand
  | [], otherwise => otherwise
  | (condition, value) :: rest, otherwise => do
    decideBranch (← operandOf (result env condition .operand))
      (operandOf (result env value .operand)) (firstBranch env rest otherwise)
termination_by structural branches => branches

/-- What a conditional gives when no condition is true, null if nothing is said. -/
def otherwiseOf (env : Environment) : Option Expr → Eval Operand
  | none => return .value .null
  | some e => operandOf (result env e .operand)
termination_by structural e => e

/-- The values of array elements in order, up to the first that may not stand there or cannot be
resolved. -/
def elementValues (env : Environment) : List Expr → Eval (Option (List Value))
  | [] => return some []
  | e :: rest => do
    if e.isArrayElement then
      match ← operandOf (result env e .operand) with
      | .value value => return (← elementValues env rest).map (value :: ·)
      | .unresolved => return none
    else
      Eval.warn (.unsupportedArrayElement e.kindName)
      return none
termination_by structural es => es

end

/-- Evaluates an expression and leaves its operand on the stack. -/
def visit (env : Environment) (e : Expr) : Eval Unit := do
  Eval.push (← result env e .operand)

/-- Evaluates a whole expression. -/
def evaluate (env : Environment) (e : Expr) : EStateM EvalError Machine Resolution :=
  Eval.resolve (e.visit env)

/-- Evaluates an expression to a value; what cannot be resolved is null. -/
def evaluateValue (env : Environment) (e : Expr) : EStateM EvalError Machine Value := do
  match ← e.evaluate env with
  | .resolved operand => return operand.valueOrNull
  | .unbound missing =>
    modify fun machine => machine.warn (.unboundVariable missing.name)
    return .null

end Expr

end ObjectQuery
