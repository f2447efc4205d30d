import ObjectQuery.Method.Collection
import ObjectQuery.Method.Custom
import ObjectQuery.Method.Map
import ObjectQuery.Method.Numeric
import ObjectQuery.Method.Text

/-!
Methods and functions of every kind, and how a call is answered by one.
-/

namespace ObjectQuery

/-- A method or a function, built in or of a program. -/
inductive Method where
  | text (method : TextMethod)
  | collection (method : CollectionMethod)
  | map (method : MapMethod)
  | math (function : MathFunction)
  | number (method : NumberMethod)
  /-- The identity of the receiver. -/
  | identity
  /-- The identity of the only argument. -/
  | identityOf
  | custom (method : CustomMethod)

namespace Method

/-- The identity of a managed object; anything else has null. -/
def identityValue : Value → Value
  | .object _ _ _ identifier => identifier.getD .null
  | _ => .null

/-- Answers the identity of the receiver. -/
def evaluateIdentity (call : Call) (receiver : Value) : Eval Operand := do
  call.checkCount (.exactly 0)
  return .value (identityValue receiver)

/-- Answers the identity of the argument. -/
def evaluateIdentityOf (call : Call) : Eval Operand := do
  call.checkCount (.exactly 1)
  match call.args with
  | [] => Eval.fail (call.countError (.exactly 1))
  | argument :: _ =>
    match ← argument.operand with
    | .value value => return .value (identityValue value)
    | .unresolved => return .unresolved

/-- Answers a call on a receiver. -/
def evaluate (method : Method) (call : Call) (receiver : Value) : Eval Operand :=
  match method with
  | text method => method.evaluate call receiver
  | collection method => method.evaluate call receiver
  | map method => method.evaluate call receiver
  | math function => function.evaluate call
  | number method => method.evaluate call receiver
  | identity => evaluateIdentity call receiver
  | identityOf => evaluateIdentityOf call
  | custom method => method.evaluate call receiver

/-- The answer to a call on null, for which nothing is evaluated. -/
def nullDefault : Method → Value
  | text method => method.nullDefault
  | collection method => method.nullDefault
  | map method => method.nullDefault
  | math _ | number _ | identity | identityOf => .null
  | custom method => method.nullDefault

end Method

end ObjectQuery
