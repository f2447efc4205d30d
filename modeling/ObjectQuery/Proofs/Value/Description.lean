import Mathlib.Logic.Function.Basic
import ObjectQuery.Proofs.Value.Renaming

/-!
What the names of objects stand for. In the course of an evaluation objects are added to those that
are known, and nothing that is known of an object changes.
-/

namespace ObjectQuery

/-- The type and the identity of the object of a name, for the names that stand for an object. -/
abbrev Kinds := InstanceId → Option (String × Option Value)

namespace Kinds

variable {kinds later latest : Kinds}

/-- The objects of the earlier kinds are known, and as before. -/
def Extends (later kinds : Kinds) : Prop := ∀ id kind, kinds id = some kind → later id = some kind

theorem Extends.refl (kinds : Kinds) : kinds.Extends kinds := fun _ _ h => h

theorem Extends.trans (h : latest.Extends later) (h' : later.Extends kinds) :
    latest.Extends kinds := fun id kind hkind => h id kind (h' id kind hkind)

theorem extends_update {id : InstanceId} (h : kinds id = none) (kind : String × Option Value) :
    Extends (Function.update kinds id (some kind)) kinds := by
  intro other known hknown
  have hne : other ≠ id := by
    rintro rfl
    cases h.symm.trans hknown
  rw [Function.update_of_ne hne]
  exact hknown

end Kinds

namespace Value

variable {kinds later : Kinds} {value : Value}

/-- An object has the type and the identity that its name stands for. -/
def DescribedBy (kinds : Kinds) : Value → Prop
  | object id typeName _ identity => kinds id = some (typeName, identity)
  | _ => True

/-- All objects in a value are what their names stand for. -/
def Described (kinds : Kinds) (value : Value) : Prop := value.All (DescribedBy kinds)

/-- Values in which objects of one name are one object. -/
def Coherent (values : List Value) : Prop :=
  ∃ kinds : Kinds, ∀ value ∈ values, value.Described kinds

theorem Described.mono (h : value.Described kinds) (hlater : later.Extends kinds) :
    value.Described later := by
  refine h.imp fun part hpart => ?_
  cases part with
  | object id typeName fields identity => exact hlater _ _ hpart
  | _ => trivial

theorem described_array {items : List Value} (h : ∀ item ∈ items, item.Described kinds) :
    (array items).Described kinds := .node trivial h

theorem described_object {id : InstanceId} {typeName : String} {fields : List (String × Value)}
    (hid : kinds id = some (typeName, none)) (h : ∀ field ∈ fields, field.2.Described kinds) :
    (object id typeName fields none).Described kinds := by
  refine .node hid fun child hchild => ?_
  rw [children, Option.toList_none, List.append_nil] at hchild
  obtain ⟨field, hfield, rfl⟩ := List.mem_map.mp hchild
  exact h field hfield

theorem Described.field {id : InstanceId} {typeName : String} {fields : Bindings Value}
    {identity : Option Value} (h : (object id typeName fields identity).Described kinds)
    {name : String} (hvalue : fields.get? name = some value) : value.Described kinds :=
  h.child value (List.mem_append_left _
    (List.mem_map_of_mem (Bindings.mem_of_get?_eq_some hvalue)))

theorem Described.identity {id : InstanceId} {typeName : String} {fields : List (String × Value)}
    (h : (object id typeName fields (some value)).Described kinds) : value.Described kinds :=
  h.child value (by simp [children])

theorem Described.element {elements : List Value} (h : value.Described kinds)
    (helements : value.elements? = some elements) : ∀ element ∈ elements,
      element.Described kinds := by
  cases value with
  | array items | list items | set items =>
    obtain rfl := Option.some.inj helements
    exact h.child
  | _ => cases helements

theorem Described.entry {entries : List (Value × Value)} (h : (map entries).Described kinds)
    {entry : Value × Value} (hentry : entry ∈ entries) :
    entry.1.Described kinds ∧ entry.2.Described kinds :=
  ⟨h.child _ (List.mem_append_left _ (List.mem_map_of_mem hentry)),
    h.child _ (List.mem_append_right _ (List.mem_map_of_mem hentry))⟩

/-! ### Values without parts -/

/-- Whether a value has no parts and is no object. -/
def isFlat : Value → Bool
  | array _ | list _ | set _ | map _ | object .. => false
  | _ => true

theorem described_of_isFlat (kinds : Kinds) (h : value.isFlat) : value.Described kinds := by
  cases value with
  | array items | list items | set items | map entries => cases h
  | object id typeName fields identity => cases h
  | _ => exact .node trivial (by simp [children])

theorem isFlat_of_isNumeric (h : value.isNumeric) : value.isFlat := by
  cases value <;> first
    | rfl
    | cases h

end Value

end ObjectQuery
