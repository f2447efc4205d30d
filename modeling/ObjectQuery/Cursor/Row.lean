import ObjectQuery.Cursor

/-!
Result rows: one for each candidate, or a single one computed over all of them.
-/

namespace ObjectQuery.Cursor

/-- A row of one value is that value; of several, an array. -/
def rowValue : List Value → Value
  | [value] => value
  | values => .array values

/-- The values of a row's expressions. -/
def rowValues (scope : Scope) (results : List Expr) : EStateM EvalError Machine (List Value) :=
  results.mapM fun e => e.evaluateValue scope.environment

/-- Where a projection stands: the context it evaluates in and how many rows it has begun. -/
structure Projecting where
  context : Context
  rows : Nat

/-- A row for each candidate. -/
def project (scope : Scope) (stage : Nat) (results : List Expr) (child : Cursor) : Cursor where
  State := Layer child.State (Option Projecting)
  start := ⟨child.start, none⟩
  init := do
    if (← Work.own).isNone then
      if results.isEmpty then throw .noProjection
      Work.below child.init
      Work.setOwn (some ⟨scope.context, 0⟩)
  next := do
    match ← Work.own with
    | none => throw .notInitialised
    | some standing =>
      match ← Work.below child.next with
      | none => return none
      | some candidate =>
        let (values, after) ← Work.evaluating (standing.context.setCandidate candidate)
          (stageSupply stage standing.rows) (rowValues scope results)
        Work.setOwn (some ⟨after.clearCandidate, standing.rows + 1⟩)
        return some (rowValue (← Work.ofExcept values))
  remaining state := child.remaining state.below

/-- Reads all values below. -/
def readMembers (child : Cursor) {τ : Type} : Nat → Work (Layer child.State τ) (List Value)
  | 0 => return []
  | fuel + 1 => do
    match ← Work.below child.next with
    | none => return []
    | some value => return value :: (← readMembers child fuel)

/-- A single row over all values, which `init` reads and computes. The cursor's own state is the row
until it is given. -/
def aggregate (scope : Scope) (stage : Nat) (results : List Expr) (child : Cursor) : Cursor where
  State := Layer child.State (Option (Option Value))
  start := ⟨child.start, none⟩
  init := do
    if (← Work.own).isNone then
      if results.isEmpty then throw .noAggregation
      Work.below child.init
      let members ← readMembers child (child.remaining (← get).state.below + 1)
      let context := { scope.context with resultSet := some members }
      let (values, _) ← Work.evaluating context (stageSupply stage 0) (rowValues scope results)
      Work.setOwn (some (some (rowValue (← Work.ofExcept values))))
  next := do
    match ← Work.own with
    | none => throw .notInitialised
    | some row =>
      Work.setOwn (some none)
      return row
  remaining state := (state.own.join.toList).length

end ObjectQuery.Cursor
