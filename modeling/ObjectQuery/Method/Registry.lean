import ObjectQuery.Catalog
import ObjectQuery.Method

/-!
Registries of methods: functions by name, and methods by the type of the receiver and name. Names
are told apart without regard to case. A type has the methods of its supertypes unless a nearer type
has one of that name.
-/

namespace ObjectQuery

/-- Functions by name, and methods by type and name. -/
structure Registry where
  functions : Bindings Method
  methods : Bindings (Bindings Method)

namespace Registry

def empty : Registry := ⟨[], []⟩

/-- The form of a name by which methods are kept. -/
def key (name : String) : String := CaseMapping.lower name

/-- Adds a method of a type, or a function if there is no type, over an earlier one of that name. -/
def register (registry : Registry) (receiverType : Option String) (name : String)
    (method : Method) : Registry :=
  match receiverType with
  | none => { registry with functions := registry.functions.insert (key name) method }
  | some type =>
    let known := (registry.methods.get? type).getD []
    { registry with methods := registry.methods.insert type (known.insert (key name) method) }

/-- The function of a name. -/
def function? (registry : Registry) (name : String) : Option Method :=
  registry.functions.get? (key name)

/-- The method that is registered for the type itself. -/
def ownMethod? (registry : Registry) (type name : String) : Option Method := do
  (← registry.methods.get? type).get? (key name)

/-- The method of a type: its own, or that of the nearest supertype that has one. -/
def method? (registry : Registry) (catalog : Catalog) (type name : String) : Option Method :=
  (catalog.ancestry type).findSome? fun ancestor => registry.ownMethod? ancestor name

/-- A method for a receiver of no known type: that of the first type by name that has one. -/
def methodByName? (registry : Registry) (name : String) : Option Method :=
  ((registry.methods.map (·.1)).mergeSort (· ≤ ·)).findSome? fun type =>
    registry.ownMethod? type name

/-- How many functions and methods there are. -/
def size (registry : Registry) : Nat :=
  registry.methods.foldl (fun n (_, methods) => n + methods.length) registry.functions.length

def builtinEntries : List (Option String × String × Method) :=
  TextMethod.all.map (fun m => (some "String", m.name, .text m)) ++
  [CollectionMethod.contains, .isEmpty, .size].map
    (fun m => (some "Collection", m.name, .collection m)) ++
  [(some "List", CollectionMethod.get.name, .collection .get)] ++
  [CollectionMethod.contains, .length, .size].map
    (fun m => (some "Array", m.name, .collection m)) ++
  MapMethod.all.map (fun m => (some "Map", m.name, .map m)) ++
  ["Math.abs", "ABS"].map (fun name => (none, name, .math .abs)) ++
  ["Math.sqrt", "SQRT"].map (fun name => (none, name, .math .sqrt)) ++
  NumberMethod.all.map (fun m => (some "Number", m.name, .number m)) ++
  ["JDOHelper.getObjectId", "ID"].map (fun name => (none, name, .identityOf)) ++
  [(some rootType, "getObjectId", .identity)]

/-- The registry of the built-in methods. -/
def builtin : Registry :=
  builtinEntries.foldl (fun registry (type, name, method) => registry.register type name method)
    empty

end Registry

end ObjectQuery
