import ObjectQuery.Json.Shape

/-!
Descriptions of user types: their supertypes, stored fields and constructors, and the JSON form in
which query documents give them.
-/

namespace ObjectQuery

/-- A parameter: the field that it fills and the type that it takes. -/
structure ConstructorParam where
  field : String
  typeName : String
deriving DecidableEq, Repr

/-- A constructor by its parameters. -/
structure Constructor where
  params : List ConstructorParam
deriving DecidableEq, Repr

/-- A class of a program. -/
structure ClassInfo where
  /-- The fully qualified name. -/
  name : String
  superclass : Option String
  interfaces : List String
  /-- The stored fields, if the type has a stored form. -/
  fields : Option (List String)
  constructors : List Constructor
deriving DecidableEq, Repr

namespace ClassInfo

/-- The part of a name behind its last point. -/
def simpleName (c : ClassInfo) : String := ((c.name.splitOn ".").getLast?).getD c.name

/-- The types right above, the class first. -/
def supertypes (c : ClassInfo) : List String := c.superclass.toList ++ c.interfaces

end ClassInfo

/-! ### JSON form -/

namespace ConstructorParam

def shape : List Json.Field := [⟨"field", false⟩, ⟨"type_name", false⟩]

def ofJson? (json : Json) : Option ConstructorParam := do
  match ← json.record? shape with
  | [some field, some typeName] => return ⟨← field.string?, ← typeName.string?⟩
  | _ => none

def toJson (p : ConstructorParam) : Json :=
  .object [("field", .string p.field), ("type_name", .string p.typeName)]

end ConstructorParam

namespace Constructor

def arity (c : Constructor) : Nat := c.params.length

def shape : List Json.Field := [⟨"params", false⟩]

def ofJson? (json : Json) : Option Constructor := do
  match ← json.record? shape with
  | [some params] => return ⟨← (← params.items?).mapM ConstructorParam.ofJson?⟩
  | _ => none

def toJson (c : Constructor) : Json :=
  .object [("params", .array (c.params.map ConstructorParam.toJson))]

end Constructor

namespace ClassInfo

def shape : List Json.Field :=
  [⟨"name", false⟩, ⟨"superclass", true⟩, ⟨"interfaces", true⟩, ⟨"fields", true⟩,
    ⟨"constructors", true⟩]

def strings? (json : Json) : Option (List String) := do (← json.items?).mapM Json.string?

def ofJson? (json : Json) : Option ClassInfo := do
  match ← json.record? shape with
  | [some name, superclass, interfaces, fields, constructors] =>
    let readConstructors (json : Json) : Option (List Constructor) := do
      (← json.items?).mapM Constructor.ofJson?
    return {
      name := ← name.string?
      superclass := ← Json.optional (fun json => json.string?) superclass
      interfaces := ← Json.withDefault strings? [] interfaces
      fields := ← Json.optional strings? fields
      constructors := ← Json.withDefault readConstructors [] constructors }
  | _ => none

def stringsJson (texts : List String) : Json := .array (texts.map .string)

def toJson (c : ClassInfo) : Json :=
  .object [("name", .string c.name),
    ("superclass", (c.superclass.map Json.string).getD .null),
    ("interfaces", stringsJson c.interfaces),
    ("fields", (c.fields.map stringsJson).getD .null),
    ("constructors", .array (c.constructors.map Constructor.toJson))]

end ClassInfo

end ObjectQuery
