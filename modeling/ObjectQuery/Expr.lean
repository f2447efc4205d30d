import ObjectQuery.Expr.Operator

/-!
Expression trees: what they are built from and the facts that a tree shows without evaluation.
-/

namespace ObjectQuery

/-- Expressions of the query language. -/
inductive Expr where
  | literal (value : Value)
  /-- A query parameter. -/
  | parameter (name : String)
  /-- A query variable; one without a value ranges over the candidates that its place offers. -/
  | var (name : String)
  /-- A path of member names, from the candidate or from the value of a qualifier. -/
  | path (qualifier : Option Expr) (segments : List String)
  | binary (op : BinaryOperator) (left right : Expr)
  | unary (op : UnaryOperator) (operand : Expr)
  /-- A method call, or a function call if there is no receiver. The receiver's declared type counts
  when its value is null. -/
  | invoke (receiver : Option Expr) (method : String) (args : List Expr)
      (receiverType : Option String)
  /-- The construction of an object. -/
  | creator (typeName : String) (args : List Expr)
  /-- The result behind the first condition that holds. -/
  | conditional (branches : List (Expr × Expr)) (otherwise : Option Expr)
  | array (elements : List Expr)

instance : Inhabited Expr := ⟨.literal .null⟩

namespace Expr

/-- The name of an expression's shape as messages give it. -/
def kindName : Expr → String
  | literal _ => "literal"
  | parameter _ => "parameter"
  | var _ => "variable"
  | path .. => "primary"
  | binary .. => "dyadic"
  | unary .. => "unary"
  | invoke .. => "invocation"
  | creator .. => "creator"
  | conditional .. => "case"
  | array _ => "array"

/-- The name of an expression that is a variable. -/
def variableName? : Expr → Option String
  | var name => some name
  | _ => none

/-- The segments of a path with dots between them. -/
def pathText (segments : List String) : String := String.intercalate "." segments

/-- Whether a call names an aggregate function; its arguments are not looked at. -/
def isAggregateCall (receiver : Option Expr) (method : String) : Bool :=
  receiver.isNone && (AggregateKind.ofName? method).isSome

mutual

/-- Whether the call of an aggregate stands anywhere in an expression. -/
def containsAggregate : Expr → Bool
  | literal _ | parameter _ | var _ => false
  | path qualifier _ => optionContainsAggregate qualifier
  | binary _ left right => containsAggregate left || containsAggregate right
  | unary _ operand => containsAggregate operand
  | invoke receiver method args _ =>
    isAggregateCall receiver method || optionContainsAggregate receiver || anyContainsAggregate args
  | creator _ args => anyContainsAggregate args
  | conditional branches otherwise =>
    branchesContainAggregate branches || optionContainsAggregate otherwise
  | array elements => anyContainsAggregate elements
termination_by structural e => e

def optionContainsAggregate : Option Expr → Bool
  | none => false
  | some e => containsAggregate e
termination_by structural e => e

/-- Whether it stands in one of several expressions. -/
def anyContainsAggregate : List Expr → Bool
  | [] => false
  | e :: rest => containsAggregate e || anyContainsAggregate rest
termination_by structural es => es

/-- Whether it stands in a condition or a result. -/
def branchesContainAggregate : List (Expr × Expr) → Bool
  | [] => false
  | (condition, result) :: rest =>
    containsAggregate condition || containsAggregate result || branchesContainAggregate rest
termination_by structural branches => branches

end

/-- A path, or negations of one: what a minus sign may stand before. -/
def isNegatable : Expr → Bool
  | path .. => true
  | unary .neg operand => isNegatable operand
  | _ => false

def isPath : Expr → Bool
  | path .. => true
  | _ => false

/-- Whether an expression may be an element of an array. -/
def isArrayElement : Expr → Bool
  | literal _ | path .. | parameter _ => true
  | _ => false

/-! ### Construction -/

/-- A reference to a type. -/
def typeRef (name : String) : Expr := literal (.type name)

/-- The path that a text with dots spells. -/
def ofPathText (text : String) : Expr := path none (text.splitOn ".")

/-- Members of a qualifier's value. -/
def qualified (qualifier : Expr) (segments : List String) : Expr := path (some qualifier) segments

/-- Members of a value that is cast first. -/
def castPath (operand : Expr) (typeName : String) (segments : List String) : Expr :=
  qualified (binary .cast operand (typeRef typeName)) segments

/-- The test whether a value is an instance of a type. -/
def isType (operand : Expr) (typeName : String) : Expr := binary .is operand (typeRef typeName)

/-- The call of a method on a receiver. -/
def callMethod (receiver : Expr) (method : String) (args : List Expr) : Expr :=
  invoke (some receiver) method args none

/-- The call of a function. -/
def callFunction (method : String) (args : List Expr) : Expr := invoke none method args none

end Expr

end ObjectQuery
