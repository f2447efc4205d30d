import ObjectQuery.Store

/-!
The errors that end an evaluation: the expression breaks a rule that every candidate would break, or
a stored field cannot be loaded. Gaps that concern one candidate alone are no errors.
-/

namespace ObjectQuery

/-- The errors of an evaluation. -/
inductive EvalError where
  /-- A cast somewhere else than at the root of a path. -/
  | bareCast
  /-- A minus sign before something that is no path. -/
  | unsupportedNegation (shape : String)
  | nonNumericNegation (typeName : String)
  /-- A bitwise complement of something that is no path. -/
  | unsupportedComplement (shape : String)
  | likeOperand (found : String)
  | invalidPattern (pattern : String)
  | invalidOperand (operator expected found : String)
  /-- Something that names no type where a type has to stand. -/
  | typeOperandExpected (operator found : String)
  | unknownType (name : String)
  | noMatchingConstructor (typeName arguments : String)
  | unsupportedOperator (operator : String)
  | argumentCount (method expected : String) (actual : Nat)
  /-- An evaluation that does not leave exactly one operand. -/
  | stackImbalance (size : Nat)
  | stackUnderflow
  | fieldLoad (cause : StoreError)
deriving DecidableEq, Repr

def EvalError.message : EvalError → String
  | bareCast => "CAST is only supported as the qualifier of a member path"
  | unsupportedNegation shape => s!"Negation is not supported on {shape} expressions"
  | nonNumericNegation typeName => s!"Cannot negate a value of type {typeName}"
  | unsupportedComplement shape => s!"Bitwise complement is not supported on {shape} expressions"
  | likeOperand found => s!"LIKE can only be used on a String, found {found}"
  | invalidPattern pattern => "Invalid pattern '" ++ pattern ++ "'"
  | invalidOperand operator expected found =>
    s!"Invalid operand for operator {operator}: expected {expected}, got {found}"
  | typeOperandExpected operator found =>
    s!"Operator {operator} requires a type as its right operand, got {found}"
  | unknownType name => s!"Unknown type: {name}"
  | noMatchingConstructor typeName arguments =>
    s!"No constructor of {typeName} accepts ({arguments})"
  | unsupportedOperator operator => s!"Operator {operator} is not supported here"
  | argumentCount method expected actual =>
    s!"Method {method} expects {expected} arguments, got {actual}"
  | stackImbalance size => s!"Operand stack holds {size} values after evaluation, expected 1"
  | stackUnderflow => "Operand stack underflow"
  | fieldLoad cause => cause.message

end ObjectQuery
