import ObjectQuery.Catalog.ClassInfo
import ObjectQuery.Value

/-!
The catalog of types: it resolves names, finds the ancestry of a type and tests instances, and it
builds objects by their constructors. Built-in types are always known.
-/

namespace ObjectQuery

/-- The user types by full name, and the full names that short names and aliases stand for. -/
structure Catalog where
  classes : Bindings ClassInfo
  imports : Bindings String
deriving Inhabited

namespace Catalog

def empty : Catalog := ⟨[], []⟩

/-- Adds a type. Its simple name becomes a name for it unless another type has that name already. -/
def register (catalog : Catalog) (c : ClassInfo) : Catalog where
  classes := catalog.classes.insert c.name c
  imports :=
    if c.simpleName = c.name then catalog.imports
    else catalog.imports.insertIfNew c.simpleName c.name

/-- Lets a name stand for a type. -/
def addImport (catalog : Catalog) (shortName typeName : String) : Catalog :=
  { catalog with imports := catalog.imports.insert shortName typeName }

/-- The names of the registered classes in order. -/
def classNames (catalog : Catalog) : List String :=
  (catalog.classes.map (·.1)).mergeSort (· ≤ ·)

/-- Packages whose name may stand before that of a built-in type. -/
def builtinPackages : List String := ["java.lang.", "java.util.", "java.math."]

/-- Whether a full name is that of a class or of a built-in type. -/
def isKnown (catalog : Catalog) (name : String) : Bool :=
  catalog.classes.contains name || (builtinSupertypes? name).isSome

/-- The built-in type that a name with a package in front stands for. -/
def builtinInPackage? (name : String) : Option String :=
  (builtinPackages.filterMap fun package =>
      (package.toList.isPrefixOf? name.toList).map String.ofList).find?
    fun short => (builtinSupertypes? short).isSome

/-- The full name of a known type that a name stands for. -/
def resolve? (catalog : Catalog) (name : String) : Option String :=
  if catalog.isKnown name then some name
  else match (catalog.imports.get? name).filter catalog.isKnown with
    | some full => some full
    | none => builtinInPackage? name

/-- The full name of a type, or the name itself if it names no type. -/
def resolveOrSelf (catalog : Catalog) (name : String) : String := (catalog.resolve? name).getD name

/-- Direct supertypes by full name. A type with none declared, or one that is not known, is a direct
subtype of the root. -/
def directSupertypes (catalog : Catalog) (name : String) : List String :=
  match catalog.classes.get? name with
  | some c => if c.supertypes.isEmpty then [rootType] else c.supertypes.map catalog.resolveOrSelf
  | none => (builtinSupertypes? name).getD [rootType]

/-- Walks the supertypes breadth first: `queue` holds the names to visit, `chain` those visited. -/
def walk (catalog : Catalog) : Nat → List String → List String → List String
  | 0, _, chain => chain
  | _ + 1, [], chain => chain
  | fuel + 1, current :: queue, chain =>
    if current = rootType || chain.contains current then walk catalog fuel queue chain
    else walk catalog fuel (queue ++ catalog.directSupertypes current) (chain ++ [current])

/-- Visits that a walk can need: one for its start, and for each type that it expands one per direct
supertype. The types expanded are user types, built-in ones, and names that stand for no type. -/
def walkBound (catalog : Catalog) : Nat :=
  catalog.classes.foldl (fun n (_, c) => n + 2 * (c.supertypes.length + 1)) 64

/-- A type followed by all its supertypes, nearest first, the root last. -/
def ancestry (catalog : Catalog) (name : String) : List String :=
  catalog.walk catalog.walkBound [name] [] ++ [rootType]

/-- Whether a type is the target or below it. -/
def isAssignable (catalog : Catalog) (source target : String) : Bool :=
  (catalog.ancestry source).contains (catalog.resolveOrSelf target)

/-- Whether a value is an instance of a type; null is an instance of none. -/
def isInstance (catalog : Catalog) (value : Value) (typeName : String) : Bool :=
  match value.typeName? with
  | some actual => catalog.isAssignable actual typeName
  | none => false

/-- Whether a value may be passed for a parameter of a type. Null may be passed for any, and every
number for a type of numbers. -/
def accepts (catalog : Catalog) (typeName : String) (value : Value) : Bool :=
  value.isNull || catalog.isInstance value typeName ||
    (value.isNumeric && match catalog.resolve? typeName with
      | some resolved => catalog.isAssignable resolved "Number"
      | none => false)

/-- Whether a constructor takes arguments of these kinds and of this number. -/
def acceptsAll (catalog : Catalog) (c : Constructor) (args : List Value) : Bool :=
  c.arity == args.length &&
    (c.params.zip args).all fun (param, arg) => catalog.accepts param.typeName arg

end Catalog

namespace Constructor

/-- The object that a constructor makes: each argument becomes the field of its parameter. -/
def build (c : Constructor) (id : InstanceId) (typeName : String) (args : List Value) : Object :=
  (c.params.zip args).foldl (fun object (param, arg) => object.setField param.field arg)
    ⟨id, typeName, [], none⟩

end Constructor

/-- A constructor without parameters, which a type without constructors has. -/
def Constructor.implicit : Constructor := ⟨[]⟩

namespace Catalog

/-- The first constructor of a class that takes the arguments. -/
def constructor? (catalog : Catalog) (typeName : String) (args : List Value) :
    Option Constructor := do
  let c ← catalog.classes.get? typeName
  if c.constructors.isEmpty && args.isEmpty then return .implicit
  c.constructors.find? fun constructor => catalog.acceptsAll constructor args

/-- The object that a class makes of arguments. -/
def construct? (catalog : Catalog) (id : InstanceId) (typeName : String) (args : List Value) :
    Option Object :=
  (catalog.constructor? typeName args).map fun constructor => constructor.build id typeName args

end Catalog

end ObjectQuery
