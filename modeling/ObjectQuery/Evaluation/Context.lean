import ObjectQuery.Value

/-!
The names that have values while an expression is evaluated. The candidate is the state under a
name of its own, so a state that is set by that name and the candidate are one.
-/

namespace ObjectQuery

/-- What names stand for in an evaluation. -/
structure Context where
  candidateName : String
  parameters : Bindings Value
  state : Bindings Value
  /-- The values given to variables. -/
  assignment : Bindings Value
  /-- What aggregates range over, where there is such a thing. -/
  resultSet : Option (List Value)
deriving Inhabited

namespace Context

/-- The name of the candidate if nothing is said. -/
def defaultCandidateName : String := "this"

/-- The context before there is a candidate. -/
def ofParameters (candidateName : String) (parameters : Bindings Value) : Context :=
  ⟨candidateName, parameters, [], [], none⟩

/-- The candidate, if there is one. -/
def candidate? (context : Context) : Option Value := context.state.get? context.candidateName

/-- Sets a state. -/
def setState (context : Context) (name : String) (value : Value) : Context :=
  { context with state := context.state.insert name value }

/-- Makes a value the candidate. -/
def setCandidate (context : Context) (value : Value) : Context :=
  context.setState context.candidateName value

/-- Takes the candidate away. -/
def clearCandidate (context : Context) : Context :=
  { context with state := context.state.erase context.candidateName }

/-- Puts back the candidate that there was, or that there was none. -/
def restoreCandidate (context : Context) : Option Value → Context
  | some value => context.setCandidate value
  | none => context.clearCandidate

/-- The value of a parameter; one that is not given is null. -/
def parameter (context : Context) (name : String) : Value :=
  (context.parameters.get? name).getD .null

/-- Sets a parameter. -/
def setParameter (context : Context) (name : String) (value : Value) : Context :=
  { context with parameters := context.parameters.insert name value }

/-- Gives a value to a variable. -/
def setVariable (context : Context) (name : String) (value : Value) : Context :=
  { context with assignment := context.assignment.insert name value }

/-- Takes the value of a variable away. -/
def clearVariable (context : Context) (name : String) : Context :=
  { context with assignment := context.assignment.erase name }

/-- Takes the values of all variables away. -/
def clearVariables (context : Context) : Context := { context with assignment := [] }

/-- The value of a variable, from the state if the state has one of that name. -/
def binding? (context : Context) (name : String) : Option Value :=
  (context.state.get? name).or (context.assignment.get? name)

end Context

end ObjectQuery
