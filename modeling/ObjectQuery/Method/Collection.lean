import ObjectQuery.Method.Call
import ObjectQuery.Value.Equality

/-!
Methods of collections and arrays. Membership is by the equality of the query operators, and a
variable without a value ranges over the elements.
-/

namespace ObjectQuery

/-- The methods of collections and arrays. -/
inductive CollectionMethod where
  | contains
  | isEmpty
  | size
  /-- The size of an array. -/
  | length
  /-- The element at a position of a list. -/
  | get
deriving DecidableEq, Repr

namespace CollectionMethod

def name : CollectionMethod → String
  | contains => "contains"
  | isEmpty => "isEmpty"
  | size => "size"
  | length => "length"
  | get => "get"

def arity : CollectionMethod → Arity
  | contains | get => .exactly 1
  | isEmpty | size | length => .exactly 0

/-- The answer for a null receiver. -/
def nullDefault : CollectionMethod → Value
  | contains | isEmpty => .boolean false
  | size | length | get => .null

/-- Whether a value is loosely equal to an element. -/
def isMember (elements : List Value) (value : Value) : Bool :=
  elements.any fun element => element.looseEq value

/-- The element at a position, unresolved if there is none. -/
def elementAt (call : Call) (elements : List Value) (position : Value) : Eval Operand := do
  let index ← call.integer position
  match if 0 ≤ index then elements[index.toNat]? else none with
  | some element => return .value element
  | none => Eval.unresolved (.indexOutOfRange get.name index)

/-- Answers a call on elements. -/
def apply (method : CollectionMethod) (call : Call) (elements : List Value) : Eval Operand := do
  call.checkCount method.arity
  match method, call.args with
  | contains, argument :: _ =>
    match ← argument.member elements with
    | .value value => return .ofBool (isMember elements value)
    | .unresolved => return .ofBool false
  | isEmpty, _ => return .ofBool elements.isEmpty
  | size, _ | length, _ => return .value (.int (Int32.ofNat elements.length))
  | get, argument :: _ =>
    match ← argument.operand with
    | .value position => elementAt call elements position
    | .unresolved => return .unresolved
  | _, [] => Eval.fail (call.countError method.arity)

/-- Answers a call on a receiver, which must have elements. -/
def evaluate (method : CollectionMethod) (call : Call) (receiver : Value) : Eval Operand :=
  match receiver.elements? with
  | some elements => method.apply call elements
  | none => Eval.fail (.invalidOperand method.name "Collection" receiver.describeType)

end CollectionMethod

end ObjectQuery
