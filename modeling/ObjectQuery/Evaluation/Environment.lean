import ObjectQuery.Method.Registry
import ObjectQuery.Expr

/-!
What evaluations read and never change, and the parts of an evaluation that read it: the members of
paths, the types that operators name, casts, calls and new objects.
-/

namespace ObjectQuery

/-- The types, the methods and the access to stored fields. -/
structure Environment where
  catalog : Catalog
  registry : Registry
  access : FieldAccess

namespace Environment

/-- A member of an object: by its place in the store if the object is kept there, by name in memory
otherwise. -/
def member (env : Environment) (object : Object) (name : String) : Eval (Option Value) :=
  match env.access.fieldIndex? object name with
  | some index => return some (← Eval.load env.access object index)
  | none => return object.field? name

/-- The value of the first entry whose key is the text. -/
def textEntry? (entries : List (Value × Value)) (key : String) : Option Value :=
  (entries.find? fun entry => entry.1.string? == some key).map (·.2)

/-- Follows member names from a value. Null ends a path with null. -/
def navigate (env : Environment) : Value → List String → Eval Operand
  | value, [] => return .value value
  | .null, _ :: _ => return .value .null
  | .object id typeName fields identity, segment :: rest => do
    match ← env.member ⟨id, typeName, fields, identity⟩ segment with
    | some value => navigate env value rest
    | none => Eval.unresolved (.unresolvedMember segment typeName)
  | .map entries, segment :: rest =>
    match textEntry? entries segment with
    | some value => navigate env value rest
    | none => Eval.unresolved (.unresolvedMember segment DataType.map.name)
  | value, segment :: _ => Eval.unresolved (.unresolvedMember segment value.describeType)

/-- Where a path without a qualifier starts, and the segments left to follow: the candidate under
its name, a state of the first segment's name, or else the candidate. -/
def pathRoot (context : Context) : List String → Option Value × List String
  | [] => (context.candidate?, [])
  | first :: rest =>
    if first = context.candidateName then (context.candidate?, rest)
    else match context.state.get? first with
      | some value => (some value, rest)
      | none => (context.candidate?, first :: rest)

/-- The value of a path without a qualifier. -/
def path (env : Environment) (segments : List String) : Eval Operand := do
  match pathRoot (← Eval.context) segments with
  | (some root, rest) => env.navigate root rest
  | (none, _) => Eval.unresolved (.unresolvedMember (Expr.pathText segments) "no candidate")

/-- The value of a path behind a qualifier. -/
def pathFrom (env : Environment) (root : Operand) (segments : List String) : Eval Operand :=
  match root with
  | .value value => env.navigate value segments
  | .unresolved => return .unresolved

/-- The name that the right operand of a test of types or of a cast spells. -/
def typeName? : Expr → Option String
  | .literal (.type name) => some name
  | .path none segments => some (Expr.pathText segments)
  | _ => none

/-- The full name of the type that the right operand spells. -/
def typeOperand (env : Environment) (op : BinaryOperator) (e : Expr) : Except EvalError String :=
  match typeName? e with
  | none => .error (.typeOperandExpected op.symbol e.kindName)
  | some name =>
    match env.catalog.resolve? name with
    | some full => .ok full
    | none => .error (.unknownType name)

/-- Whether an operand is an instance of a type; one that cannot be resolved is not. -/
def isInstance (env : Environment) (operand : Operand) (typeName : String) : Bool :=
  match operand with
  | .value value => env.catalog.isInstance value typeName
  | .unresolved => false

/-- Casts the root of a path: the value stays as it is if it is null or an instance of the type. -/
def castTo (env : Environment) (target : String) (source : Operand) : Eval Operand :=
  match source with
  | .unresolved => return .unresolved
  | .value value =>
    if value.isNull || env.catalog.isInstance value target then return .value value
    else Eval.unresolved (.failedCast value.describeType target)

/-- Calls a function. -/
def callFunction (env : Environment) (call : Call) : Eval Operand :=
  match env.registry.function? call.name with
  | some method => method.evaluate call .null
  | none => Eval.unresolved (.unsupportedMethod none call.name)

/-- The type that a call is dispatched on. The type of null is the declared one if there is one. -/
def receiverType? (env : Environment) (receiver : Value) (declared : Option String) :
    Option String :=
  match receiver with
  | .null => declared.map env.catalog.resolveOrSelf
  | value => value.typeName?

/-- The method for a receiver; null of no declared type has the methods of all types. -/
def methodFor? (env : Environment) (type? : Option String) (name : String) : Option Method :=
  match type? with
  | some type => env.registry.method? env.catalog type name
  | none => env.registry.methodByName? name

/-- Calls a method on a receiver; on null it gives its fixed answer. -/
def callMethod (env : Environment) (receiver : Value) (call : Call) : Eval Operand :=
  let type? := env.receiverType? receiver call.declared
  match env.methodFor? type? call.name with
  | some method =>
    if receiver.isNull then return .value method.nullDefault else method.evaluate call receiver
  | none => Eval.unresolved (.unsupportedMethod (some (type?.getD "null")) call.name)

/-- The values of operands if all of them could be resolved. -/
def allValues : List Operand → Option (List Value)
  | [] => some []
  | .value value :: rest => (allValues rest).map (value :: ·)
  | .unresolved :: _ => none

/-- Makes an object of a type by the constructor that takes the arguments. -/
def create (env : Environment) (typeName : String) (args : List Value) : Eval Operand :=
  match env.catalog.resolve? typeName with
  | none => Eval.fail (.unknownType typeName)
  | some full =>
    match env.catalog.constructor? full args with
    | some constructor => return .value (constructor.build (← Eval.fresh) full args).toValue
    | none =>
      Eval.fail (.noMatchingConstructor full
        (String.intercalate ", " (args.map Value.describeType)))

end Environment

end ObjectQuery
