import ObjectQuery.Cursor

/-!
The selection of candidates by a condition. Variables are existential: a candidate is kept if the
condition is true for some choice of their values from those that the condition offers.
-/

namespace ObjectQuery.Cursor

abbrev Names := List String

mutual

/-- The variables of an expression from left to right. -/
def variableNames : Expr → Names
  | .literal _ | .parameter _ => []
  | .var name => [name]
  | .path qualifier _ => optionVariableNames qualifier
  | .binary _ left right => variableNames left ++ variableNames right
  | .unary _ operand => variableNames operand
  | .invoke receiver _ args _ => optionVariableNames receiver ++ listVariableNames args
  | .creator _ args => listVariableNames args
  | .conditional branches otherwise =>
    branchVariableNames branches ++ optionVariableNames otherwise
  | .array elements => listVariableNames elements
termination_by structural e => e

def optionVariableNames : Option Expr → Names
  | none => []
  | some e => variableNames e
termination_by structural e => e

/-- The variables of several expressions. -/
def listVariableNames : List Expr → Names
  | [] => []
  | e :: rest => variableNames e ++ listVariableNames rest
termination_by structural es => es

/-- The variables of conditions and results. -/
def branchVariableNames : List (Expr × Expr) → Names
  | [] => []
  | (condition, result) :: rest =>
    variableNames condition ++ variableNames result ++ branchVariableNames rest
termination_by structural branches => branches

end

/-- Whether a test succeeds for one of the values of a variable, which is cleared behind it. -/
def anyValue (name : String) (test : EStateM EvalError Machine Bool) :
    List Value → EStateM EvalError Machine Bool
  | [] => do
    modify (Machine.mapContext (·.clearVariable name))
    return false
  | value :: rest => do
    modify (Machine.mapContext (·.setVariable name value))
    if ← test then
      modify (Machine.mapContext (·.clearVariable name))
      return true
    else anyValue name test rest

/-- Whether more variables may get values: as many as are declared, or any number if none is. -/
def mayBind (declared : List String) (bound : Nat) : Bool :=
  declared.isEmpty || bound < declared.length

/-- Whether the condition is true for the candidate under some values of its variables, of which
`bound` have one. Each round gives a value to one more variable of the condition, so the rounds are
never more than its variables and one. A round is a turn of its own: the objects that it makes are
others than those among the values bound before. -/
def satisfiedWithin (env : Environment) (condition : Expr) (declared : List String) :
    (rounds bound : Nat) → EStateM EvalError Machine Bool
  | 0, _ => return false
  | rounds + 1, bound => do
    modify fun machine => machine.beginTurn bound
    match ← condition.evaluate env with
    | .resolved operand => return operand.isTrue
    | .unbound missing =>
      match missing.candidates.filter fun _ => mayBind declared bound with
      | some values =>
        anyValue missing.name (satisfiedWithin env condition declared rounds (bound + 1)) values
      | none =>
        modify fun machine => machine.warn (.unboundVariable missing.name)
        return false

/-- Whether the condition is true for the candidate under some values of its variables. -/
def satisfied (env : Environment) (condition : Expr) (declared : List String) :
    EStateM EvalError Machine Bool :=
  satisfiedWithin env condition declared ((variableNames condition).length + 1) 0

/-- The next candidate for which the condition is true. What it has bound is cleared behind each. -/
def nextSatisfying (scope : Scope) (stage : Nat) (condition : Expr) (child : Cursor) :
    Nat → Context → Work (Layer child.State (Option Context)) (Option Value)
  | 0, _ => return none
  | fuel + 1, context => do
    match ← Work.below child.next with
    | none => return none
    | some candidate =>
      let (kept, after) ← Work.evaluating (context.setCandidate candidate) (stageSupply stage 0)
        (satisfied scope.environment condition scope.declared)
      let context := after.clearVariables.clearCandidate
      Work.setOwn (some context)
      if ← Work.ofExcept kept then return some candidate
      else nextSatisfying scope stage condition child fuel context

/-- The candidates for which the condition is true. -/
def filter (scope : Scope) (stage : Nat) (condition : Expr) (child : Cursor) : Cursor where
  State := Layer child.State (Option Context)
  start := ⟨child.start, none⟩
  init := do
    if (← Work.own).isNone then
      Work.below child.init
      Work.setOwn (some scope.context)
  next := do
    match ← Work.own with
    | none => throw .notInitialised
    | some context =>
      let left := child.remaining (← get).state.below
      nextSatisfying scope stage condition child (left + 1) context
  remaining state := child.remaining state.below

end ObjectQuery.Cursor
