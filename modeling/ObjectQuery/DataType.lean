/-!
The built-in types: the concrete ones that values have, the abstract ones above them, and which
types each one has as direct supertypes.
-/

namespace ObjectQuery

/-- A type that values other than objects and null have. -/
inductive DataType where
  | boolean
  | character
  | byte
  | short
  | integer
  | long
  | bigInteger
  | float
  | double
  | bigDecimal
  | string
  | array
  | list
  | set
  | map
  | «class»
deriving DecidableEq, Repr

def rootType : String := "Object"

namespace DataType

def all : List DataType :=
  [.boolean, .character, .byte, .short, .integer, .long, .bigInteger, .float, .double, .bigDecimal,
    .string, .array, .list, .set, .map, .class]

def name : DataType → String
  | .boolean => "Boolean"
  | .character => "Character"
  | .byte => "Byte"
  | .short => "Short"
  | .integer => "Integer"
  | .long => "Long"
  | .bigInteger => "BigInteger"
  | .float => "Float"
  | .double => "Double"
  | .bigDecimal => "BigDecimal"
  | .string => "String"
  | .array => "Array"
  | .list => "List"
  | .set => "Set"
  | .map => "Map"
  | .class => "Class"

/-- The built-in type of a name. -/
def ofName? (name : String) : Option DataType := all.find? (·.name == name)

/-- The names of the types right above, nearest first. -/
def supertypes : DataType → List String
  | .byte | .short | .integer | .long | .bigInteger | .float | .double | .bigDecimal =>
    ["Number", "Comparable"]
  | .string => ["CharSequence", "Comparable"]
  | .boolean | .character => ["Comparable"]
  | .list | .set => ["Collection"]
  | .array | .map | .class => [rootType]

end DataType

/-- Built-in types that no value has of its own, with the types right above them. -/
def abstractTypes : List (String × List String) :=
  [("Number", [rootType]), ("Comparable", [rootType]), ("CharSequence", [rootType]),
    ("Iterable", [rootType]), ("Collection", ["Iterable"]), (rootType, [])]

/-- The types right above a built-in one, concrete or abstract. -/
def builtinSupertypes? (name : String) : Option (List String) :=
  match DataType.ofName? name with
  | some type => some type.supertypes
  | none => abstractTypes.lookup name

end ObjectQuery
