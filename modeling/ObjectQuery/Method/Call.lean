import ObjectQuery.Evaluation.Machine
import ObjectQuery.Expr

/-!
Calls as a method sees them: how the call is written, and the arguments to be evaluated. The method
has them evaluated itself, so that it decides which of them are evaluated and in what order.
-/

namespace ObjectQuery

/-- An expression that a method can look at and can have evaluated. -/
structure Argument where
  expr : Expr
  /-- Evaluates the argument and pushes its operand. -/
  visit : Eval Unit

namespace Argument

/-- The operand of an argument. A halt of the argument leaves what it has pushed. -/
def operand (argument : Argument) : Eval Operand := do
  argument.visit
  Eval.pop

/-- Evaluates an argument as a whole. An error is an outcome as well, behind which a method can go
on. -/
def evaluate (argument : Argument) : Eval (Except EvalError Resolution) := fun machine =>
  match Eval.resolve argument.visit machine with
  | .ok resolution after => .ok (.ok resolution) after
  | .error error after => .ok (.error error) after

/-- The operand of an argument that is compared with members of the receiver. A variable without a
value stops here and offers those members. -/
def member (argument : Argument) (candidates : List Value) : Eval Operand := do
  match argument.expr.variableName? with
  | none => argument.operand
  | some name =>
    match (← Eval.context).binding? name with
    | none => Eval.stopOn name (some candidates)
    | some _ => argument.operand

/-- The values of arguments in order, up to the first that cannot be resolved. -/
def values : List Argument → Eval (Option (List Value))
  | [] => return some []
  | argument :: rest => do
    match ← argument.operand with
    | .value value => return (← values rest).map (value :: ·)
    | .unresolved => return none

end Argument

/-- A call as it is written. -/
structure Call where
  /-- The expression that the receiver is the value of; a function has none. -/
  receiver : Option Argument
  name : String
  args : List Argument
  /-- The type that the receiver is declared to have. -/
  declared : Option String

/-- How many arguments a method takes. -/
structure Arity where
  least : Nat
  most : Nat
deriving DecidableEq, Repr

namespace Arity

/-- So many arguments, no fewer and no more. -/
def exactly (n : Nat) : Arity := ⟨n, n⟩

/-- A range of numbers of arguments. -/
def between (least most : Nat) : Arity := ⟨least, most⟩

/-- Whether a method takes so many arguments. -/
def admits (arity : Arity) (n : Nat) : Bool := arity.least ≤ n && n ≤ arity.most

/-- The numbers of arguments as messages give them. -/
def describe (arity : Arity) : String :=
  if arity.least = arity.most then toString arity.least
  else toString arity.least ++ " or " ++ toString arity.most

end Arity

namespace Call

/-- The error for a wrong number of arguments. -/
def countError (call : Call) (arity : Arity) : EvalError :=
  .argumentCount call.name arity.describe call.args.length

/-- Fails for a wrong number of arguments. -/
def checkCount (call : Call) (arity : Arity) : Eval Unit :=
  if arity.admits call.args.length then return else Eval.fail (call.countError arity)

/-- The 64-bit integer of an argument. -/
def integer (call : Call) (value : Value) : Eval Int :=
  if value.isIntegral then
    match value.toInt64? with
    | some n => return n.toInt
    | none => Eval.fail (.invalidOperand "argument" "64-bit integer" value.toText)
  else
    Eval.fail (.invalidOperand "argument" "integral number"
      (value.describeType ++ " in " ++ call.name))

end Call

end ObjectQuery
