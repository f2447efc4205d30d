import ObjectQuery.Bindings
import ObjectQuery.DataType
import ObjectQuery.Number.Decimal

/-!
The values that queries compute with. Objects are shared: each has an instance name, and two object
values are the same object exactly when they carry the same name.
-/

namespace ObjectQuery

/-- The name of an object instance: which stage made it, on which of its turns, and its number
among the objects made there. Stage 0 stands for the input. -/
structure InstanceId where
  stage : Nat
  turn : Nat
  serial : Nat
deriving DecidableEq, Repr, Inhabited

/-- The name of the object made next in the same turn. -/
def InstanceId.next (id : InstanceId) : InstanceId := { id with serial := id.serial + 1 }

/-- The values of the query language. An object carries the name of its instance. -/
inductive Value where
  | null
  | boolean (b : Bool)
  | char (c : Char)
  | byte (n : Int8)
  | short (n : Int16)
  | int (n : Int32)
  | long (n : Int64)
  | bigInteger (n : Int)
  | float (x : Single)
  | double (x : Double)
  | decimal (d : Decimal)
  | string (s : String)
  | array (items : List Value)
  | list (items : List Value)
  | set (items : List Value)
  | map (entries : List (Value × Value))
  /-- An object with the fields held in memory; one with an identity is managed by a store. -/
  | object (id : InstanceId) (typeName : String) (fields : List (String × Value))
      (identity : Option Value)
  /-- A reference to a type by its resolved name. -/
  | type (name : String)

instance : Inhabited Value := ⟨.null⟩

/-- An object by itself, apart from the values that hold it. -/
structure Object where
  id : InstanceId
  typeName : String
  fields : Bindings Value
  identity : Option Value

namespace Object

/-- The object as a value. -/
def toValue (o : Object) : Value := .object o.id o.typeName o.fields o.identity

def isManaged (o : Object) : Bool := o.identity.isSome

/-- A field that the object has in memory. -/
def field? (o : Object) (name : String) : Option Value := o.fields.get? name

/-- The object with a field set or added. -/
def setField (o : Object) (name : String) (value : Value) : Object :=
  { o with fields := o.fields.insert name value }

end Object

namespace Value

/-- The built-in type of a value; null and objects have none. -/
def dataType? : Value → Option DataType
  | null | object .. => none
  | boolean _ => some .boolean
  | char _ => some .character
  | byte _ => some .byte
  | short _ => some .short
  | int _ => some .integer
  | long _ => some .long
  | bigInteger _ => some .bigInteger
  | float _ => some .float
  | double _ => some .double
  | decimal _ => some .bigDecimal
  | string _ => some .string
  | array _ => some .array
  | list _ => some .list
  | set _ => some .set
  | map _ => some .map
  | type _ => some .class

/-- The name of the type that a value has when it is dispatched on; null has none. -/
def typeName? : Value → Option String
  | object _ typeName _ _ => some typeName
  | value => value.dataType?.map DataType.name

/-- The name of the type as messages give it. -/
def describeType (value : Value) : String := value.typeName?.getD "null"

def isNull : Value → Bool
  | null => true
  | _ => false

/-- Whether a value is an integer of any kind. -/
def isIntegral : Value → Bool
  | byte _ | short _ | int _ | long _ | bigInteger _ => true
  | _ => false

/-- Whether a value is a number of any kind. -/
def isNumeric : Value → Bool
  | float _ | double _ | decimal _ => true
  | value => value.isIntegral

def string? : Value → Option String
  | string s => some s
  | _ => none

/-- The elements of an array, a list or a set. -/
def elements? : Value → Option (List Value)
  | array items | list items | set items => some items
  | _ => none

end Value

end ObjectQuery
