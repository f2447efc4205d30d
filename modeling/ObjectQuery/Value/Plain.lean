import ObjectQuery.Json
import ObjectQuery.Value.Numeric
import ObjectQuery.Value.Text

/-!
Values as plain JSON, the form of candidates and of results. Reading tells objects from maps by a
`$type` member; writing keeps what JSON has a form for and gives the display text of the rest.
-/

namespace ObjectQuery

/-- Steps that give names to the objects they make. -/
abbrev Naming := StateM InstanceId

def Naming.fresh : Naming InstanceId := modifyGet fun id => (id, id.next)

namespace Value

/-- An integer takes the smaller of the two usual kinds that holds it; any other number is a
double. -/
def ofJsonNumber : JsonNumber → Value
  | .integer n =>
    if Int32.minValue.toInt ≤ n && n ≤ Int32.maxValue.toInt then int (Int32.ofInt n)
    else if fitsInt64 n then long (Int64.ofInt n)
    else double (Binary.ofInt n)
  | .double x => double x
  | .single x => double x.convert

/-- Whether a member describes its object instead of being a field of it. -/
def isMark (name : String) : Bool := name.startsWith "$"

mutual

/-- Reads plain JSON. An object with a text as its `$type` is an instance of that type, managed if
it has an `$id`; any other object is a map with texts as keys. -/
def ofJson : Json → Naming Value
  | .null | .unreadable => return null
  | .boolean b => return boolean b
  | .number n => return ofJsonNumber n
  | .string s => return string s
  | .array items => return list (← ofJsonItems items)
  | .object members => do
    let values ← ofJsonMembers members
    match (Bindings.get? members "$type").bind Json.string? with
    | some typeName =>
      let fields := Bindings.ofList (values.filter fun member => !isMark member.1)
      return object (← Naming.fresh) typeName fields (Bindings.get? values "$id")
    | none => return map (values.map fun member => (string member.1, member.2))

def ofJsonItems : List Json → Naming (List Value)
  | [] => return []
  | item :: rest => return (← ofJson item) :: (← ofJsonItems rest)

def ofJsonMembers : List (String × Json) → Naming (List (String × Value))
  | [] => return []
  | (name, value) :: rest => return (name, ← ofJson value) :: (← ofJsonMembers rest)

end

mutual

/-- Writes a value as plain JSON. Keys are written by their display text, and of members with one
name the last is written. -/
def toJson : Value → Json
  | null => .null
  | boolean b => .boolean b
  | char c => .string c.toString
  | byte n => .ofInt n.toInt
  | short n => .ofInt n.toInt
  | int n => .ofInt n.toInt
  | long n => .ofInt n.toInt
  | float x => .ofDouble x.convert
  | double x => .ofDouble x
  | bigInteger n => .string (toString n)
  | decimal d => .string d.toText
  | type name => .string (toText (type name))
  | string s => .string s
  | array items => .array (toJsonItems items)
  | list items => .array (toJsonItems items)
  | set items => .array (toJsonItems items)
  | map entries => .object (Json.sortMembers (toJsonEntries entries))
  | object _ typeName fields _ =>
    .object (Json.sortMembers (("$type", .string typeName) :: toJsonFields fields))
termination_by structural value => value

def toJsonItems : List Value → List Json
  | [] => []
  | item :: rest => toJson item :: toJsonItems rest
termination_by structural items => items

def toJsonEntries : List (Value × Value) → List (String × Json)
  | [] => []
  | (key, value) :: rest => (toText key, toJson value) :: toJsonEntries rest
termination_by structural entries => entries

def toJsonFields : List (String × Value) → List (String × Json)
  | [] => []
  | (name, value) :: rest => (name, toJson value) :: toJsonFields rest
termination_by structural fields => fields

end

end Value

end ObjectQuery
