import ObjectQuery.Method.Call
import ObjectQuery.Number.Binary.Arithmetic

/-!
Functions and methods of numbers.
-/

namespace ObjectQuery

/-- The error for an operand that is no number. -/
def notNumeric (operator : String) (value : Value) : EvalError :=
  .invalidOperand operator "Number" value.describeType

/-- The functions of numbers. -/
inductive MathFunction where
  | abs
  | sqrt
deriving DecidableEq, Repr

namespace MathFunction

def arity : Arity := .exactly 1

/-- The value of a function; that of null is null. -/
def apply (function : MathFunction) (value : Value) : Except EvalError Value :=
  match function, value with
  | _, .null => .ok .null
  | abs, value =>
    match value.abs? with
    | some n => .ok n
    | none => .error (notNumeric "abs" value)
  | sqrt, value =>
    match value.toDouble? with
    | some x => .ok (.double x.sqrt)
    | none => .error (notNumeric "sqrt" value)

/-- Answers a call. -/
def evaluate (function : MathFunction) (call : Call) : Eval Operand := do
  call.checkCount arity
  match call.args with
  | [] => Eval.fail (call.countError arity)
  | argument :: _ =>
    match ← argument.operand with
    | .value value => return .value (← Eval.ofExcept (function.apply value))
    | .unresolved => return .unresolved

end MathFunction

/-- The methods that convert numbers. -/
inductive NumberMethod where
  | doubleValue
  | longValue
  | intValue
deriving DecidableEq, Repr

namespace NumberMethod

def all : List NumberMethod := [doubleValue, longValue, intValue]

def name : NumberMethod → String
  | doubleValue => "doubleValue"
  | longValue => "longValue"
  | intValue => "intValue"

def arity : Arity := .exactly 0

/-- The 64-bit integer of a number: an integer that fits as it is, any other number truncated from
its double and clamped. -/
def integralPart (receiver : Value) (x : Double) : Int64 := receiver.toInt64?.getD x.toInt64

/-- Converts a number; of a 64-bit integer the low half stays. -/
def convert (method : NumberMethod) (receiver : Value) (x : Double) : Value :=
  match method with
  | doubleValue => .double x
  | longValue => .long (integralPart receiver x)
  | intValue => .int (integralPart receiver x).toInt32

/-- Answers a call on a receiver, which must be a number. -/
def evaluate (method : NumberMethod) (call : Call) (receiver : Value) : Eval Operand := do
  call.checkCount arity
  match receiver.toDouble? with
  | some x => return .value (method.convert receiver x)
  | none => Eval.fail (notNumeric method.name receiver)

end NumberMethod

end ObjectQuery
