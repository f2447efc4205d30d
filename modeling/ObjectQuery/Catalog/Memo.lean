import ObjectQuery.Catalog

/-!
A catalog that remembers the ancestries it has found. Registration forgets them all; an import added
later leaves them as they are.
-/

namespace ObjectQuery

/-- A catalog and the ancestries that it has been asked for. -/
structure MemoCatalog where
  catalog : Catalog
  chains : Bindings (List String)
deriving Inhabited

namespace MemoCatalog

/-- Questions to a catalog, which remembers what it has worked out. -/
abbrev Query := StateM MemoCatalog

def empty : MemoCatalog := ⟨.empty, []⟩

/-- Adds a class and forgets what was remembered. -/
def register (memo : MemoCatalog) (c : ClassInfo) : MemoCatalog := ⟨memo.catalog.register c, []⟩

/-- Lets a name stand for a type. What was remembered stays. -/
def addImport (memo : MemoCatalog) (shortName typeName : String) : MemoCatalog :=
  { memo with catalog := memo.catalog.addImport shortName typeName }

/-- The remembered ancestry, or else a new one, which is kept. -/
def ancestry (name : String) : Query (List String) := do
  let memo ← get
  match memo.chains.get? name with
  | some chain => return chain
  | none =>
    let chain := memo.catalog.ancestry name
    set { memo with chains := memo.chains.insert name chain }
    return chain

/-- Whether a type is the target or below it, by remembered ancestries. -/
def isAssignable (source target : String) : Query Bool := do
  return (← ancestry source).contains ((← get).catalog.resolveOrSelf target)

/-- Whether a value is an instance of a type, by remembered ancestries. -/
def isInstance (value : Value) (typeName : String) : Query Bool := do
  match value.typeName? with
  | some actual => isAssignable actual typeName
  | none => return false

/-- Whether a parameter of a type takes a value, by remembered ancestries. -/
def accepts (typeName : String) (value : Value) : Query Bool := do
  if value.isNull then return true
  if ← isInstance value typeName then return true
  if !value.isNumeric then return false
  match (← get).catalog.resolve? typeName with
  | some resolved => isAssignable resolved "Number"
  | none => return false

/-- Whether each parameter takes its argument, up to the first that does not. -/
def acceptsEach : List (ConstructorParam × Value) → Query Bool
  | [] => return true
  | (param, arg) :: rest => do
    if ← accepts param.typeName arg then acceptsEach rest else return false

/-- The first constructor that takes the arguments. -/
def findConstructor? (args : List Value) : List Constructor → Query (Option Constructor)
  | [] => return none
  | constructor :: rest => do
    if constructor.arity == args.length then
      if ← acceptsEach (constructor.params.zip args) then return some constructor
      else findConstructor? args rest
    else findConstructor? args rest

/-- The object that a class makes of arguments. -/
def construct? (id : InstanceId) (typeName : String) (args : List Value) :
    Query (Option Object) := do
  match (← get).catalog.classes.get? typeName with
  | none => return none
  | some c =>
    let constructor ←
      if c.constructors.isEmpty && args.isEmpty then pure (some Constructor.implicit)
      else findConstructor? args c.constructors
    return constructor.map fun constructor => constructor.build id typeName args

end MemoCatalog

end ObjectQuery
