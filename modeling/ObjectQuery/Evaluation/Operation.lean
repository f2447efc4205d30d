import ObjectQuery.Expr
import ObjectQuery.Method.Text
import ObjectQuery.Value.Equality

/-!
What the operators make of their operands. A comparison with an operand that cannot be resolved is
false, and so is a conjunction; a disjunction needs only one true side.
-/

namespace ObjectQuery

/-- The error for an operand of the wrong type. -/
def wrongOperand (operator expected : String) (value : Value) : EvalError :=
  .invalidOperand operator expected value.describeType

namespace BinaryOperator

/-- The truth value of an operand of a logical operator; what has none counts as false. -/
def logical (op : BinaryOperator) : Operand → Except EvalError Bool
  | .value (.boolean b) => .ok b
  | .value .null | .unresolved => .ok false
  | .value other => .error (wrongOperand op.symbol "Boolean" other)

/-- False with an operand that cannot be resolved, whatever the other one is. -/
def conjunction (left right : Operand) : Except EvalError Operand :=
  if left.isUnresolved || right.isUnresolved then .ok (.ofBool false)
  else do
    let l ← logical .and left
    let r ← logical .and right
    return .ofBool (l && r)

/-- Operands other than true count as false, whatever their type. -/
def disjunction (left right : Operand) : Operand :=
  if left.isTrue || right.isTrue then .ofBool true
  else if left.isUnresolved && right.isUnresolved then .unresolved
  else .ofBool false

/-- Whether an operator of order is true of two values in this order. -/
def holdsFor (op : BinaryOperator) (order : Ordering) : Bool :=
  match op with
  | .lt => order == .lt
  | .le => order != .gt
  | .gt => order == .gt
  | _ => order != .lt

/-- Compares two values. Without an order between them an operator of order has no result. -/
def compareValues (op : BinaryOperator) (left right : Value) : Operand :=
  match op with
  | .eq => .ofBool (left.looseEq right)
  | .ne => .ofBool (!left.looseEq right)
  | _ =>
    if left.isNull || right.isNull then .unresolved
    else match left.compare? right with
      | some order => .ofBool (op.holdsFor order)
      | none => .unresolved

/-- Compares two operands; with one that cannot be resolved the result is false. -/
def comparison (op : BinaryOperator) : Operand → Operand → Operand
  | .value left, .value right => op.compareValues left right
  | _, _ => .ofBool false

/-- Whether a text matches a pattern as a whole. -/
def likeness : Operand → Operand → Eval Operand
  | .value .null, .value _ => return .ofBool false
  | .value (.string text), .value (.string pattern) =>
    return .ofBool (← matchesWhole pattern text)
  | .value (.string _), .value other => Eval.fail (wrongOperand like.symbol "String" other)
  | .value other, .value _ => Eval.fail (.likeOperand other.describeType)
  | _, _ => return .ofBool false

def isString : Value → Bool
  | .string _ => true
  | _ => false

/-- The warning for an operation on numbers without a result. -/
def faultWarning (op : BinaryOperator) : Value.ArithmeticFault → Warning
  | .divisionByZero => .divisionByZero op.symbol
  | .nonFinite => .nonFiniteOperand op.symbol

/-- Computes with two values. Null makes the result null, and a sum with a text joins texts. -/
def compute (op : BinaryOperator) (arithmetic : Value.Arithmetic) (left right : Value) :
    Eval Operand :=
  if left.isNull || right.isNull then return .value .null
  else if op == .add && (isString left || isString right) then
    return .value (.string (left.toText ++ right.toText))
  else if !left.isNumeric then Eval.fail (wrongOperand op.symbol "Number" left)
  else if !right.isNumeric then Eval.fail (wrongOperand op.symbol "Number" right)
  else match Value.applyArithmetic arithmetic left right with
    | .ok value => return .value value
    | .error fault => Eval.unresolved (op.faultWarning fault)

/-- The result of an operator that is not about types. -/
def apply (op : BinaryOperator) (left right : Operand) : Eval Operand :=
  match op with
  | .and => Eval.ofExcept (conjunction left right)
  | .or => return disjunction left right
  | .eq | .ne | .lt | .le | .gt | .ge => return op.comparison left right
  | .like => likeness left right
  | .add | .sub | .mul | .div | .mod | .is | .isNot | .cast =>
    match op.arithmetic?, left, right with
    | some arithmetic, .value l, .value r => op.compute arithmetic l r
    | some _, _, _ => return .unresolved
    | none, _, _ => Eval.fail (.unsupportedOperator op.symbol)

end BinaryOperator

namespace UnaryOperator

/-- The opposite of a number; null stays null. -/
def negate : Operand → Except EvalError Operand
  | .unresolved => .ok .unresolved
  | .value .null => .ok (.value .null)
  | .value value =>
    match value.negate? with
    | some negated => .ok (.value negated)
    | none => .error (.nonNumericNegation value.describeType)

/-- The bitwise complement of a value. -/
def complement : Operand → Operand
  | .value value => .value value.complement
  | .unresolved => .unresolved

/-- The opposite of a truth value; the opposite of what has none is false. -/
def opposite : Operand → Except EvalError Operand
  | .unresolved | .value .null => .ok (.ofBool false)
  | .value (.boolean b) => .ok (.ofBool (!b))
  | .value other => .error (wrongOperand not.symbol "Boolean" other)

/-- Refuses operators that do not stand before an expression of the shape that they need. -/
def checkShape (op : UnaryOperator) (operand : Expr) : Except EvalError Unit :=
  match op with
  | .neg => if operand.isNegatable then .ok () else .error (.unsupportedNegation operand.kindName)
  | .com => if operand.isPath then .ok () else .error (.unsupportedComplement operand.kindName)
  | .not => .ok ()
  | .distinct => .error (.unsupportedOperator op.symbol)

/-- The result of an operator with one operand. -/
def apply (op : UnaryOperator) (operand : Operand) : Except EvalError Operand :=
  match op with
  | .neg => negate operand
  | .com => .ok (complement operand)
  | .not => opposite operand
  | .distinct => .error (.unsupportedOperator op.symbol)

end UnaryOperator

end ObjectQuery
