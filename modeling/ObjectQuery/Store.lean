import ObjectQuery.Value.Text

/-!
Stores of managed objects: the fields of each type in a fixed layout, and a row of values for each
object, found by its type and the display text of its identity.
-/

namespace ObjectQuery

/-- Why a row cannot be stored or a field cannot be loaded. -/
inductive StoreError where
  | noLayout (typeName : String)
  | rowLength (typeName : String) (values fields : Nat)
  | notManaged (typeName : String) (index : Nat)
  | noIdentity (typeName : String)
  | noState (typeName identity : String)
  | noField (typeName : String) (index : Nat)
deriving DecidableEq, Repr

def StoreError.message : StoreError → String
  | noLayout typeName => s!"no field layout for type {typeName}"
  | rowLength typeName values fields =>
    s!"row for {typeName} has {values} values but the layout has {fields} fields"
  | notManaged typeName index => s!"{typeName} is not managed (field {index})"
  | noIdentity typeName => s!"{typeName} has no identity"
  | noState typeName identity => s!"no stored state for {typeName}[{identity}]"
  | noField typeName index => s!"field index {index} out of range for {typeName}"

/-- What a row is found by: the type and the display text of the identity. -/
structure RowKey where
  typeName : String
  identity : String
deriving DecidableEq, Repr

/-- Layouts of types and the rows of managed objects. -/
structure ObjectStore where
  layouts : Bindings (List String)
  rows : List (RowKey × List Value)
deriving Inhabited

namespace ObjectStore

def empty : ObjectStore := ⟨[], []⟩

/-- Sets the layout of a type. The rows stay as they are. -/
def defineLayout (store : ObjectStore) (typeName : String) (fields : List String) : ObjectStore :=
  { store with layouts := store.layouts.insert typeName fields }

/-- Puts a row in the place of the one with its key, or at the end. -/
def insertRow (key : RowKey) (row : List Value) :
    List (RowKey × List Value) → List (RowKey × List Value)
  | [] => [(key, row)]
  | (other, kept) :: rest =>
    if other = key then (key, row) :: rest else (other, kept) :: insertRow key row rest

/-- The row with a key. -/
def row? (store : ObjectStore) (key : RowKey) : Option (List Value) :=
  (store.rows.find? (·.1 = key)).map (·.2)

/-- Stores the state of the object with an identity; the row must fit the layout of the type. -/
def put (store : ObjectStore) (typeName : String) (identity : Value) (row : List Value) :
    Except StoreError ObjectStore :=
  match store.layouts.get? typeName with
  | none => .error (.noLayout typeName)
  | some layout =>
    if layout.length = row.length then
      .ok { store with rows := insertRow ⟨typeName, identity.toText⟩ row store.rows }
    else .error (.rowLength typeName row.length layout.length)

/-- The place of a member in the layout of a managed object's type. -/
def fieldIndex? (store : ObjectStore) (object : Object) (member : String) : Option Nat :=
  if object.isManaged then do (← store.layouts.get? object.typeName).findIdx? (· == member)
  else none

/-- The field at a place of the row of a managed object. -/
def fetch (store : ObjectStore) (object : Object) (index : Nat) : Except StoreError Value :=
  match object.identity with
  | none => .error (.noIdentity object.typeName)
  | some identity =>
    match store.row? ⟨object.typeName, identity.toText⟩ with
    | none => .error (.noState object.typeName identity.toText)
    | some row =>
      match row[index]? with
      | none => .error (.noField object.typeName index)
      | some value => .ok value

end ObjectStore

/-- Where the fields of objects come from: from memory alone, or from a store if it has them. -/
inductive FieldAccess where
  | detached
  | stored (store : ObjectStore)

namespace FieldAccess

/-- The place of a member that is kept in a store. -/
def fieldIndex? (access : FieldAccess) (object : Object) (member : String) : Option Nat :=
  match access with
  | detached => none
  | stored store => store.fieldIndex? object member

/-- Loads the field at a place. -/
def fetch (access : FieldAccess) (object : Object) (index : Nat) : Except StoreError Value :=
  match access with
  | detached => .error (.notManaged object.typeName index)
  | stored store => store.fetch object index

end FieldAccess

end ObjectQuery
