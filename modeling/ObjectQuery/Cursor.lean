import ObjectQuery.Evaluation

/-!
Cursors: sources that give values one at a time, on demand. A cursor keeps its state also when a
step fails, so that work can go on after an error. The stages of a query are cursors that read from
a cursor below them.
-/

namespace ObjectQuery

/-- Why a query stops. -/
inductive QueryError where
  | notInitialised
  | noProjection
  | noAggregation
  | evaluation (error : EvalError)
deriving DecidableEq, Repr

def QueryError.message : QueryError → String
  | notInitialised => "Executor not initialized. Call init() first."
  | noProjection => "Projection requires at least one result expression"
  | noAggregation => "Aggregation requires at least one result expression"
  | evaluation error => error.message

/-- The state of a cursor and the record of what was reported and loaded on the way. -/
structure Progress (σ : Type) where
  state : σ
  trace : Trace

/-- Steps of a cursor. -/
abbrev Work (σ : Type) := EStateM QueryError (Progress σ)

/-- The state of a stage over the state of what it reads from. -/
structure Layer (σ τ : Type) where
  below : σ
  own : τ

namespace Work

variable {σ τ α : Type}

/-- A step of the cursor below a stage. -/
def below (step : Work σ α) : Work (Layer σ τ) α := fun progress =>
  let resume (after : Progress σ) : Progress (Layer σ τ) :=
    ⟨⟨after.state, progress.state.own⟩, after.trace⟩
  match step ⟨progress.state.below, progress.trace⟩ with
  | .ok a after => .ok a (resume after)
  | .error error after => .error error (resume after)

/-- The stage's own state. -/
def own : Work (Layer σ τ) τ := return (← get).state.own

/-- Sets the stage's own state. -/
def setOwn (own : τ) : Work (Layer σ τ) Unit :=
  modify fun progress => { progress with state := { progress.state with own } }

/-- Evaluates in a context, which comes back as the evaluation leaves it, whatever its outcome. -/
def evaluating (context : Context) (supply : InstanceId) (run : EStateM EvalError Machine α) :
    Work σ (Except EvalError α × Context) := fun progress =>
  match run (Machine.start context progress.trace supply) with
  | .ok a machine => .ok (.ok a, machine.context) { progress with trace := machine.trace }
  | .error error machine =>
    .ok (.error error, machine.context) { progress with trace := machine.trace }

/-- The result of an evaluation, or a stop with its error. -/
def ofExcept : Except EvalError α → Work σ α
  | .ok a => return a
  | .error error => throw (.evaluation error)

end Work

/-- A source of values by its state and its steps. -/
structure Cursor where
  State : Type
  start : State
  init : Work State Unit
  /-- The next value, or none at the end. -/
  next : Work State (Option Value)
  /-- How many values can still come at most, once `init` is done. -/
  remaining : State → Nat

namespace Cursor

/-- A stage gets its turns counted under a number of its own, so that the objects which different
stages make have different names. -/
def stageSupply (stage turn : Nat) : InstanceId := ⟨stage, turn, 0⟩

/-- What the stages of a query have in common. -/
structure Scope where
  environment : Environment
  candidateName : String
  parameters : Bindings Value
  /-- The variables that the query declares. -/
  declared : List String

/-- The context in which a stage starts. -/
def Scope.context (scope : Scope) : Context := .ofParameters scope.candidateName scope.parameters

/-- The values of a list, from the first one again after each `init`. -/
def scan (values : List Value) : Cursor where
  State := Option (List Value)
  start := none
  init := modify fun progress => { progress with state := some values }
  next := do
    match (← get).state with
    | none => throw .notInitialised
    | some [] => return none
    | some (value :: rest) =>
      modify fun progress => { progress with state := some rest }
      return some value
  remaining left := (left.getD values).length

/-- A cursor in the course of its work. -/
structure Running where
  cursor : Cursor
  progress : Progress cursor.State

namespace Running

def start (cursor : Cursor) : Running := ⟨cursor, cursor.start, .empty⟩

/-- Prepares the cursor. -/
def init (running : Running) : Except QueryError Unit × Running :=
  match running.cursor.init running.progress with
  | .ok () progress => (.ok (), { running with progress })
  | .error error progress => (.error error, { running with progress })

/-- Asks for the next value. -/
def next (running : Running) : Except QueryError (Option Value) × Running :=
  match running.cursor.next running.progress with
  | .ok value progress => (.ok value, { running with progress })
  | .error error progress => (.error error, { running with progress })

/-- Reads until the end or an error: the values before it, and the error if there is one. -/
def drain : Nat → Running → (List Value × Option QueryError) × Running
  | 0, running => (([], none), running)
  | fuel + 1, running =>
    match running.next with
    | (.ok (some value), running) =>
      let ((values, error), running) := drain fuel running
      ((value :: values, error), running)
    | (.ok none, running) => (([], none), running)
    | (.error error, running) => (([], some error), running)

/-- Reads all values that can still come. -/
def readAll (running : Running) : (List Value × Option QueryError) × Running :=
  running.drain (running.cursor.remaining running.progress.state + 1)

end Running

end Cursor

end ObjectQuery
