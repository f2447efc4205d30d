import ObjectQuery.Json.Shape
import ObjectQuery.Number.Decimal.Text
import ObjectQuery.Value

/-!
Values as tagged JSON, the form of literals in query documents. Every kind has its tag, so that
reading what was written gives the value back.
-/

namespace ObjectQuery

/-- Reading that can fail, with names for the objects that are made. -/
abbrev Reading := StateT InstanceId Option

def Reading.fresh : Reading InstanceId := modifyGet fun id => (id, id.next)

/-- The digits of a number in base `2 ^ 32`, least first. -/
def limbs : Nat → Nat → List Nat
  | 0, _ => []
  | fuel + 1, n => if n = 0 then [] else n % UInt32.size :: limbs fuel (n / UInt32.size)

/-- The natural number of its 32-bit digits, the least significant first. -/
def ofLimbs (digits : List Nat) : Nat := digits.foldr (fun digit n => digit + n * UInt32.size) 0

/-- An integer as its sign and the digits of its magnitude. -/
def limbsJson (n : Int) : Json :=
  let magnitude := limbs (n.natAbs.log2 + 1) n.natAbs
  .array [.ofInt n.sign, .array (magnitude.map fun (limb : Nat) => .ofInt limb)]

/-- A sign of zero or a magnitude of zero gives zero. -/
def ofLimbsJson? : Json → Option Int
  | .array [sign, .array digits] => do
    let sign ← sign.integer? (-1) 1
    let digits ← digits.mapM (Json.natural? UInt32.size)
    return sign * ofLimbs digits
  | _ => none

/-- A decimal as text; numbers are also read, those with a fraction at their exact binary value. -/
def ofDecimalJson? : Json → Option Decimal
  | .string text => Decimal.ofString? text
  | .number (.integer n) => some (.ofInt n)
  | .number (.double x) => Decimal.ofBinaryExact? x
  | _ => none

namespace Value

/-- A value under the tag of its kind. -/
def tagged (tag : String) (body : Json) : Json := .object [(tag, body)]

mutual

/-- A value in the form that keeps its kind. -/
def toTagged : Value → Json
  | null => .string "Null"
  | boolean b => tagged "Boolean" (.boolean b)
  | char c => tagged "Char" (.string c.toString)
  | byte n => tagged "Byte" (.ofInt n.toInt)
  | short n => tagged "Short" (.ofInt n.toInt)
  | int n => tagged "Int" (.ofInt n.toInt)
  | long n => tagged "Long" (.ofInt n.toInt)
  | bigInteger n => tagged "BigInteger" (limbsJson n)
  | float x => tagged "Float" (.ofSingle x)
  | double x => tagged "Double" (.ofDouble x)
  | decimal d => tagged "Decimal" (.string d.toText)
  | string s => tagged "String" (.string s)
  | array items => tagged "Array" (.array (toTaggedItems items))
  | list items => tagged "List" (.array (toTaggedItems items))
  | set items => tagged "Set" (.array (toTaggedItems items))
  | map entries => tagged "Map" (.array (toTaggedEntries entries))
  | object _ typeName fields identity =>
    tagged "Object" (.object [("type_name", .string typeName),
      ("fields", .object (toTaggedFields fields)), ("identity", toTaggedIdentity identity)])
  | type name => tagged "Type" (.string name)
termination_by structural value => value

def toTaggedItems : List Value → List Json
  | [] => []
  | item :: rest => toTagged item :: toTaggedItems rest
termination_by structural items => items

def toTaggedEntries : List (Value × Value) → List Json
  | [] => []
  | (key, value) :: rest => .array [toTagged key, toTagged value] :: toTaggedEntries rest
termination_by structural entries => entries

def toTaggedFields : List (String × Value) → List (String × Json)
  | [] => []
  | (name, value) :: rest => (name, toTagged value) :: toTaggedFields rest
termination_by structural fields => fields

/-- The identity of an object, or null. -/
def toTaggedIdentity : Option Value → Json
  | none => .null
  | some identity => toTagged identity
termination_by structural identity => identity

end

def objectShape : List Json.Field :=
  [⟨"type_name", false⟩, ⟨"fields", true⟩, ⟨"identity", true⟩]

/-- Reads a tagged value whose JSON is nested less deep than `fuel`. -/
def readTagged : Nat → Json → Reading Value
  | 0, _ => failure
  | fuel + 1, json => do
    let (tag, body) ← json.variant?
    match tag, body with
    | "Null", none | "Null", some .null => return null
    | "Boolean", some (.boolean b) => return boolean b
    | "Char", some (.string s) =>
      match s.toList with
      | [c] => return char c
      | _ => failure
    | "Byte", some n => return byte (Int8.ofInt (← n.signed? 8))
    | "Short", some n => return short (Int16.ofInt (← n.signed? 16))
    | "Int", some n => return int (Int32.ofInt (← n.signed? 32))
    | "Long", some n => return long (Int64.ofInt (← n.signed? 64))
    | "BigInteger", some n => return bigInteger (← ofLimbsJson? n)
    | "Float", some x => return float (← x.binary? .single)
    | "Double", some x => return double (← x.binary? .double)
    | "Decimal", some d => return decimal (← ofDecimalJson? d)
    | "String", some (.string s) => return string s
    | "Array", some (.array items) => return array (← items.mapM (readTagged fuel))
    | "List", some (.array items) => return list (← items.mapM (readTagged fuel))
    | "Set", some (.array items) => return set (← items.mapM (readTagged fuel))
    | "Map", some (.array entries) =>
      return map (← entries.mapM fun
        | .array [key, value] => return (← readTagged fuel key, ← readTagged fuel value)
        | _ => failure)
    | "Object", some body =>
      match ← body.record? objectShape with
      | [some (.string typeName), fields, identity] =>
        let members ← Json.withDefault (fun json => json.members?) [] fields
        let fields ← members.mapM fun (name, value) => return (name, ← readTagged fuel value)
        let identity ← Json.optional (readTagged fuel) identity
        return object (← Reading.fresh) typeName (Bindings.ofList fields) identity
      | _ => failure
    | "Type", some (.string name) => return type name
    | _, _ => failure

/-- Reads a value in the tagged form. -/
def ofTagged? (json : Json) : Reading Value := readTagged (json.depth + 1) json

end Value

end ObjectQuery
