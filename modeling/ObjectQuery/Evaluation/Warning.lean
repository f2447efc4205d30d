/-!
Warnings: what an evaluation could not do for one candidate. A warning never stops an evaluation.
-/

namespace ObjectQuery

/-- The warnings of an evaluation. -/
inductive Warning where
  /-- No method of this name is registered for the type, or no function if there is no type. -/
  | unsupportedMethod (receiver : Option String) (method : String)
  /-- A variable without a value, in a place that offers it no candidates. -/
  | unboundVariable (name : String)
  | failedCast (found target : String)
  | nonBooleanCaseCondition (found : String)
  | unresolvedMember (member typeName : String)
  | divisionByZero (operator : String)
  | nonFiniteOperand (operator : String)
  /-- An aggregate without a result set to range over. -/
  | missingResultSet (aggregate : String)
  | unsupportedArrayElement (kind : String)
  | indexOutOfRange (method : String) (index : Int)
deriving DecidableEq, Repr

def Warning.message : Warning → String
  | unsupportedMethod (some receiver) method =>
    s!"Method {method} is not supported in-memory on type {receiver}"
  | unsupportedMethod none method => s!"Function {method} is not supported in-memory"
  | unboundVariable name => s!"Variable {name} has no value bound"
  | failedCast found target => s!"Cannot cast a value of type {found} to {target}"
  | nonBooleanCaseCondition found => s!"CASE condition evaluated to {found}, expected Boolean"
  | unresolvedMember member typeName => s!"Member {member} cannot be resolved on type {typeName}"
  | divisionByZero operator => s!"Division by zero in operator {operator}"
  | nonFiniteOperand operator => s!"Non-finite operand in operator {operator}"
  | missingResultSet aggregate => s!"Aggregate {aggregate} needs a result set"
  | unsupportedArrayElement kind => s!"Array literal element of kind {kind} cannot be evaluated"
  | indexOutOfRange method index => s!"Index {index} is out of range in {method}"

end ObjectQuery
