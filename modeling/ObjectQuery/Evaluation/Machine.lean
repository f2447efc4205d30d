import ObjectQuery.Evaluation.Context
import ObjectQuery.Evaluation.Error
import ObjectQuery.Evaluation.Warning

/-!
The machine that evaluates expressions: a stack of operands, the context, and a record of what was
reported and loaded. A step ends with a result or with a halt, and either way leaves a machine.
-/

namespace ObjectQuery

/-- What an expression comes to for one candidate: a value, or that it cannot be resolved. -/
inductive Operand where
  | value (value : Value)
  | unresolved

namespace Operand

/-- A truth value as an operand. -/
def ofBool (b : Bool) : Operand := .value (.boolean b)

def isUnresolved : Operand → Bool
  | unresolved => true
  | value _ => false

/-- Whether an operand is the truth value true; nothing else counts as true. -/
def isTrue : Operand → Bool
  | value (.boolean b) => b
  | _ => false

/-- The name of an operand's type as messages give it. -/
def describeType : Operand → String
  | value v => v.describeType
  | unresolved => "unresolved"

/-- The value of an operand, null if it could not be resolved. -/
def valueOrNull : Operand → Value
  | value v => v
  | unresolved => .null

end Operand

/-- A variable that was met without a value, and the values that its place offers if it has any. -/
structure Unbound where
  name : String
  candidates : Option (List Value)

/-- Why an evaluation stops: a variable without a value, or an error. -/
inductive Halt where
  | unbound (missing : Unbound)
  | fatal (error : EvalError)

/-- What a whole evaluation comes to if there is no error. -/
inductive Resolution where
  | resolved (operand : Operand)
  | unbound (missing : Unbound)

/-- What an evaluation reports beside its result. -/
structure Trace where
  warnings : List Warning
  loads : Nat
deriving Inhabited

namespace Trace

def empty : Trace := ⟨[], 0⟩

/-- The trace with one more warning. -/
def warn (trace : Trace) (warning : Warning) : Trace :=
  { trace with warnings := trace.warnings ++ [warning] }

/-- The trace with one more load. -/
def countLoad (trace : Trace) : Trace := { trace with loads := trace.loads + 1 }

end Trace

/-- The state of an evaluation. -/
structure Machine where
  context : Context
  /-- The operands not yet taken, the last one first. -/
  stack : List Operand
  trace : Trace
  /-- The name of the next object to be made. -/
  supply : InstanceId
deriving Inhabited

namespace Machine

def start (context : Context) (trace : Trace) (supply : InstanceId) : Machine :=
  ⟨context, [], trace, supply⟩

/-- How many operands are on the stack. -/
def depth (machine : Machine) : Nat := machine.stack.length

/-- The machine with the stack cut down to a depth. -/
def truncate (machine : Machine) (depth : Nat) : Machine :=
  { machine with stack := machine.stack.drop (machine.depth - depth) }

/-- The machine with its context changed. -/
def mapContext (f : Context → Context) (machine : Machine) : Machine :=
  { machine with context := f machine.context }

/-- The machine with one more warning. -/
def warn (machine : Machine) (warning : Warning) : Machine :=
  { machine with trace := machine.trace.warn warning }

/-- Starts a turn of the same stage: its first object has the number zero again. -/
def beginTurn (machine : Machine) (turn : Nat) : Machine :=
  { machine with supply := ⟨machine.supply.stage, turn, 0⟩ }

end Machine

/-- Steps of the machine. -/
abbrev Eval := EStateM Halt Machine

namespace Eval

variable {α : Type}

/-- Stops with an error. -/
def fail (error : EvalError) : Eval α := throw (.fatal error)

/-- Stops at a variable without a value. -/
def stopOn (name : String) (candidates : Option (List Value)) : Eval α :=
  throw (.unbound ⟨name, candidates⟩)

/-- The result of a computation, or a stop with its error. -/
def ofExcept : Except EvalError α → Eval α
  | .ok a => return a
  | .error e => fail e

/-- The context as it is. -/
def context : Eval Context := return (← get).context

/-- Changes the context. -/
def modifyContext (f : Context → Context) : Eval Unit := modify (Machine.mapContext f)

/-- Reports a warning. -/
def warn (warning : Warning) : Eval Unit := modify fun machine => machine.warn warning

/-- Reports why an operand cannot be resolved, and gives that operand. -/
def unresolved (warning : Warning) : Eval Operand := do
  warn warning
  return .unresolved

def fresh : Eval InstanceId :=
  modifyGet fun machine => (machine.supply, { machine with supply := machine.supply.next })

/-- Puts an operand on the stack. -/
def push (operand : Operand) : Eval Unit :=
  modify fun machine => { machine with stack := operand :: machine.stack }

/-- Takes the last operand off the stack. -/
def pop : Eval Operand := do
  let machine ← get
  match machine.stack with
  | [] => fail .stackUnderflow
  | operand :: rest =>
    set { machine with stack := rest }
    return operand

/-- Takes the last `n` operands, in the order in which they were pushed. -/
def popMany (n : Nat) : Eval (List Operand) := do
  let machine ← get
  if n ≤ machine.depth then
    set { machine with stack := machine.stack.drop n }
    return (machine.stack.take n).reverse
  else fail .stackUnderflow

/-- Runs a visit for the one operand that it pushes. The operands that were on the stack before
stay, and nothing is left above them. -/
def resolve (visit : Eval Unit) : EStateM EvalError Machine Resolution := fun before =>
  match visit before with
  | .ok () after =>
    let cleared := after.truncate before.depth
    match after.depth - before.depth, after.stack with
    | 1, operand :: _ => .ok (.resolved operand) cleared
    | size, _ => .error (.stackImbalance size) cleared
  | .error (.unbound missing) after => .ok (.unbound missing) (after.truncate before.depth)
  | .error (.fatal error) after => .error error (after.truncate before.depth)

/-- Loads a field and counts the load. -/
def load (access : FieldAccess) (object : Object) (index : Nat) : Eval Value :=
  match access.fetch object index with
  | .ok value => do
    modify fun machine => { machine with trace := machine.trace.countLoad }
    return value
  | .error cause => fail (.fieldLoad cause)

/-- Runs a step that sets candidates of its own. However it ends, the candidate is as before and the
operands that it left behind are gone. -/
def restoring (step : Eval α) : Eval α := fun machine =>
  let leave (after : Machine) : Machine :=
    (after.truncate machine.depth).mapContext (·.restoreCandidate machine.context.candidate?)
  match step machine with
  | .ok a after => .ok a (leave after)
  | .error halt after => .error halt (leave after)

end Eval

end ObjectQuery
