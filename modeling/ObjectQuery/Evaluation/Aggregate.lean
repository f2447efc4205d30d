import ObjectQuery.Evaluation.Machine
import ObjectQuery.Expr.Operator
import ObjectQuery.Number.Binary.Arithmetic
import ObjectQuery.Value.Equality

/-!
Aggregates over the result set. Nulls and members without a value do not count.
-/

namespace ObjectQuery

/-- The first of each class of strictly equal values. -/
def distinctValues (values : List Value) : List Value :=
  values.foldl (fun kept value =>
    if kept.any fun earlier => earlier.strictEq value then kept else kept ++ [value]) []

def isDecimal : Value → Bool
  | .decimal _ => true
  | _ => false

def isBigInteger : Value → Bool
  | .bigInteger _ => true
  | _ => false

/-- The sum of numbers as decimals, without those that have no decimal. -/
def decimalTotal (values : List Value) : Decimal :=
  (values.filterMap Value.toDecimal?).foldl Decimal.add (.ofInt 0)

/-- The sum of numbers as doubles. -/
def doubleTotal (values : List Value) : Double := Binary.sum (values.filterMap Value.toDouble?)

/-- The integer that a value stands for, zero if it is none. -/
def integerOf : Value → Int
  | .bigInteger n => n
  | value => value.boundedIntegral?.getD 0

/-- The sum of integers, of the 64-bit kind if it fits and no operand is of unbounded kind. -/
def integerTotal (values : List Value) : Value :=
  let total := values.foldl (fun total value => total + integerOf value) 0
  if Value.fitsInt64 total && !values.any isBigInteger then .long (Int64.ofInt total)
  else .bigInteger total

/-- The argument of an aggregate. -/
structure AggregateArgument where
  /-- Whether equal values count once. -/
  distinct : Bool
  /-- Evaluates the argument for the current candidate. -/
  operand : Eval Operand

namespace AggregateArgument

/-- The values of the argument for the members one after another, each the candidate in turn. -/
def collect (argument : AggregateArgument) : List Value → Eval (List Value)
  | [] => return []
  | member :: rest => do
    Eval.modifyContext (·.setCandidate member)
    match ← argument.operand with
    | .value value => return value :: (← argument.collect rest)
    | .unresolved => argument.collect rest

/-- The values that count. -/
def select (argument : AggregateArgument) (values : List Value) : List Value :=
  if argument.distinct then distinctValues values else values

end AggregateArgument

namespace AggregateKind

/-- Fails at the first value that is no number. -/
def requireNumeric (kind : AggregateKind) (values : List Value) : Except EvalError Unit :=
  match values.find? fun value => !value.isNumeric with
  | some value => .error (.invalidOperand kind.name "Number" value.describeType)
  | none => .ok ()

/-- The sum of numbers: a decimal if there is one among them, else a double if there is a binary
number, else an integer. -/
def total (values : List Value) : Value :=
  if values.any isDecimal then .decimal (decimalTotal values)
  else if values.any fun value => value.binary?.isSome then .double (doubleTotal values)
  else integerTotal values

/-- The mean of numbers: a decimal if there is one among them, else a double. -/
def mean (values : List Value) : Value :=
  if values.any isDecimal then
    .decimal ((decimalTotal values).div (.ofInt values.length))
  else .double ((doubleTotal values).div (Binary.ofInt values.length))

/-- The better of the best value so far and the next one; the earlier one stays on a tie. -/
def better (kind : AggregateKind) (wanted : Ordering) (best value : Value) :
    Except EvalError Value :=
  match value.compare? best with
  | some order => .ok (if order == wanted then value else best)
  | none =>
    .error (.invalidOperand kind.name "mutually comparable values"
      (best.describeType ++ " and " ++ value.describeType))

/-- The first of the values that come before all others in the wanted sense. -/
def extreme (kind : AggregateKind) (wanted : Ordering) : List Value → Except EvalError Value
  | [] => .ok .null
  | first :: rest => rest.foldlM (kind.better wanted) first

/-- What an aggregate makes of the values that count. Nulls are left out. -/
def compute (kind : AggregateKind) (values : List Value) : Except EvalError Value :=
  let values := values.filter fun value => !value.isNull
  match kind with
  | count => .ok (.long (Int64.ofNat values.length))
  | sum => do
    if values.isEmpty then return .null
    kind.requireNumeric values
    return total values
  | avg => do
    if values.isEmpty then return .null
    kind.requireNumeric values
    return mean values
  | min => kind.extreme .lt values
  | max => kind.extreme .gt values

/-- Evaluates an aggregate over the result set, and puts the candidate back. -/
def evaluate (kind : AggregateKind) (argument : AggregateArgument) : Eval Operand := do
  match (← Eval.context).resultSet with
  | none => Eval.unresolved (.missingResultSet kind.name)
  | some members =>
    let values ← Eval.restoring (argument.collect members)
    return .value (← Eval.ofExcept (kind.compute (argument.select values)))

end AggregateKind

end ObjectQuery
