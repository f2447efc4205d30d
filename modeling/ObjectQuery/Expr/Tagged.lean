import ObjectQuery.Expr
import ObjectQuery.Value.Tagged

/-!
Expressions as tagged JSON, the form that they have in query documents.
-/

namespace ObjectQuery.Expr

open Value (tagged)

mutual

/-- An expression in the tagged form. -/
def toTagged : Expr → Json
  | literal value => tagged "Literal" (.object [("value", value.toTagged)])
  | parameter name => tagged "Parameter" (.string name)
  | var name => tagged "Variable" (.string name)
  | path qualifier segments =>
    tagged "Primary" (.object [("qualifier", optionToTagged qualifier),
      ("segments", .array (segments.map .string))])
  | binary op left right =>
    tagged "BinaryOp" (.object [("op", .string op.tag), ("left", toTagged left),
      ("right", toTagged right)])
  | unary op operand =>
    tagged "UnaryOp" (.object [("op", .string op.tag), ("operand", toTagged operand)])
  | invoke receiver method args receiverType =>
    tagged "Invoke" (.object [("receiver", optionToTagged receiver), ("method", .string method),
      ("args", .array (allToTagged args)),
      ("receiver_type", (receiverType.map Json.string).getD .null)])
  | creator typeName args =>
    tagged "Creator" (.object
      [("type_name", .string typeName), ("args", .array (allToTagged args))])
  | conditional branches otherwise =>
    tagged "Case" (.object [("conditions", .array (branchesToTagged branches)),
      ("else_result", optionToTagged otherwise)])
  | array elements => tagged "Array" (.array (allToTagged elements))
termination_by structural e => e

def optionToTagged : Option Expr → Json
  | none => .null
  | some e => toTagged e
termination_by structural e => e

def allToTagged : List Expr → List Json
  | [] => []
  | e :: rest => toTagged e :: allToTagged rest
termination_by structural es => es

def branchesToTagged : List (Expr × Expr) → List Json
  | [] => []
  | (condition, result) :: rest =>
    .array [toTagged condition, toTagged result] :: branchesToTagged rest
termination_by structural branches => branches

end

def literalShape : List Json.Field := [⟨"value", false⟩]

def pathShape : List Json.Field := [⟨"qualifier", true⟩, ⟨"segments", false⟩]

def binaryShape : List Json.Field := [⟨"op", false⟩, ⟨"left", false⟩, ⟨"right", false⟩]

def unaryShape : List Json.Field := [⟨"op", false⟩, ⟨"operand", false⟩]

def invokeShape : List Json.Field :=
  [⟨"receiver", true⟩, ⟨"method", false⟩, ⟨"args", true⟩, ⟨"receiver_type", true⟩]

def creatorShape : List Json.Field := [⟨"type_name", false⟩, ⟨"args", false⟩]

def conditionalShape : List Json.Field := [⟨"conditions", false⟩, ⟨"else_result", false⟩]

/-- A name from a fixed set: alone, or as a tag with a null body. -/
def plainTag? (json : Json) : Option String :=
  match json.variant? with
  | some (tag, none) | some (tag, some .null) => some tag
  | _ => none

def strings? (json : Json) : Option (List String) := do (← json.items?).mapM Json.string?

/-- Reads what stands under a tag. How the parts are read is up to `read`, and how the values of
literals are written is up to `readValue`. -/
@[grind =]
def readBody (readValue : Json → Reading Value) (read : Json → Reading Expr) (body : Json) :
    String → Reading Expr
  | "Literal" => do
    match ← body.record? literalShape with
    | [some value] => return literal (← readValue value)
    | _ => failure
  | "Parameter" => return parameter (← body.string?)
  | "Variable" => return var (← body.string?)
  | "Primary" => do
    match ← body.record? pathShape with
    | [qualifier, some segments] =>
      return path (← Json.optional read qualifier) (← strings? segments)
    | _ => failure
  | "BinaryOp" => do
    match ← body.record? binaryShape with
    | [some op, some left, some right] =>
      let op ← (plainTag? op).bind BinaryOperator.ofTag?
      return binary op (← read left) (← read right)
    | _ => failure
  | "UnaryOp" => do
    match ← body.record? unaryShape with
    | [some op, some operand] =>
      let op ← (plainTag? op).bind UnaryOperator.ofTag?
      return unary op (← read operand)
    | _ => failure
  | "Invoke" => do
    match ← body.record? invokeShape with
    | [receiver, some method, args, receiverType] =>
      let receiver ← Json.optional read receiver
      let args ← Json.withDefault readAll [] args
      let receiverType ← Json.optional (fun json => json.string?) receiverType
      return invoke receiver (← method.string?) args receiverType
    | _ => failure
  | "Creator" => do
    match ← body.record? creatorShape with
    | [some typeName, some args] => return creator (← typeName.string?) (← readAll args)
    | _ => failure
  | "Case" => do
    match ← body.record? conditionalShape with
    | [some branches, otherwise] =>
      let branches ← (← branches.items?).mapM fun
        | .array [condition, result] => return (← read condition, ← read result)
        | _ => failure
      return conditional branches (← Json.optional read otherwise)
    | _ => failure
  | "Array" => return array (← readAll body)
  | _ => failure
where
  readAll (json : Json) : Reading (List Expr) := do (← json.items?).mapM read

/-- Reads a tagged expression whose JSON is nested less deep than `fuel`. -/
def readTagged (readValue : Json → Reading Value) : Nat → Json → Reading Expr
  | 0, _ => failure
  | fuel + 1, json => do
    let (tag, body) ← json.variant?
    readBody readValue (readTagged readValue fuel) (← body) tag

/-- Reads an expression in the tagged form. -/
def ofTagged? (json : Json) : Reading Expr := readTagged Value.ofTagged? (json.depth + 1) json

end ObjectQuery.Expr
