import ObjectQuery.Method.Call
import ObjectQuery.Value.Equality

/-!
Methods of maps. Keys and values are compared by the equality of the query operators, and a variable
without a value ranges over the keys or the values.
-/

namespace ObjectQuery

/-- The methods of maps. -/
inductive MapMethod where
  | containsKey
  | containsValue
  | containsEntry
  | get
  | isEmpty
  | size
deriving DecidableEq, Repr

namespace MapMethod

def all : List MapMethod := [containsKey, containsValue, containsEntry, get, isEmpty, size]

def name : MapMethod → String
  | containsKey => "containsKey"
  | containsValue => "containsValue"
  | containsEntry => "containsEntry"
  | get => "get"
  | isEmpty => "isEmpty"
  | size => "size"

def arity : MapMethod → Arity
  | containsKey | containsValue | get => .exactly 1
  | containsEntry => .exactly 2
  | isEmpty | size => .exactly 0

/-- The answer for a null receiver. -/
def nullDefault : MapMethod → Value
  | get | size => .null
  | _ => .boolean false

/-- The value of the first entry whose key equals the given one. -/
def lookup? (entries : List (Value × Value)) (key : Value) : Option Value :=
  (entries.find? fun entry => entry.1.looseEq key).map (·.2)

/-- Whether a value is loosely equal to one of the entries. -/
def containsValueOf (entries : List (Value × Value)) (value : Value) : Bool :=
  entries.any fun entry => entry.2.looseEq value

/-- Looks a key up and answers by what it finds, `otherwise` for a key that cannot be resolved. -/
def byKey (argument : Argument) (entries : List (Value × Value)) (otherwise : Operand)
    (found : Option Value → Eval Operand) : Eval Operand := do
  match ← argument.member (entries.map (·.1)) with
  | .value key => found (lookup? entries key)
  | .unresolved => return otherwise

/-- Whether the value stored under a key equals the argument. Without one the argument is not
evaluated. -/
def equalsStored (argument : Argument) : Option Value → Eval Operand
  | none => return .ofBool false
  | some stored => do
    match ← argument.member [stored] with
    | .value value => return .ofBool (stored.looseEq value)
    | .unresolved => return .ofBool false

/-- Answers a call on entries. -/
def apply (method : MapMethod) (call : Call) (entries : List (Value × Value)) : Eval Operand := do
  call.checkCount method.arity
  match method, call.args with
  | containsKey, key :: _ =>
    byKey key entries (.ofBool false) fun found => return .ofBool found.isSome
  | get, key :: _ => byKey key entries .unresolved fun found => return .value (found.getD .null)
  | containsValue, argument :: _ =>
    match ← argument.member (entries.map (·.2)) with
    | .value value => return .ofBool (containsValueOf entries value)
    | .unresolved => return .ofBool false
  | containsEntry, key :: value :: _ => byKey key entries (.ofBool false) (equalsStored value)
  | isEmpty, _ => return .ofBool entries.isEmpty
  | size, _ => return .value (.int (Int32.ofNat entries.length))
  | _, _ => Eval.fail (call.countError method.arity)

/-- Answers a call on a receiver, which must be a map. -/
def evaluate (method : MapMethod) (call : Call) (receiver : Value) : Eval Operand :=
  match receiver with
  | .map entries => method.apply call entries
  | _ => Eval.fail (.invalidOperand method.name "Map" receiver.describeType)

end MapMethod

end ObjectQuery
