import ObjectQuery.Method.Registry
import ObjectQuery.Proofs.Catalog.Registration

/-!
Built-in types beside user types. Main statement: in a catalog in which no user type has the name of
a built-in one, the types above a built-in type are those above it without any user types, and so
are the methods that a registry finds for it. Aliases do not matter, since built-in types declare
their supertypes by full name.
-/

namespace ObjectQuery

theorem isSome_builtinSupertypes?_of_mem {name above : String} {supertypes : List String}
    (h : builtinSupertypes? name = some supertypes) (habove : above ∈ supertypes) :
    (builtinSupertypes? above).isSome := by
  have hclosed : ∀ type ∈ Catalog.builtinTypes, ∀ above ∈ type.2,
      (builtinSupertypes? above).isSome := by decide
  exact hclosed _ (Catalog.mem_builtinTypes h) above habove

theorem DataType.mem_all (type : DataType) : type ∈ all := by
  cases type <;> decide

theorem DataType.isSome_builtinSupertypes? (type : DataType) :
    (builtinSupertypes? type.name).isSome := by
  cases type <;> rfl

namespace Catalog

variable {catalog : Catalog} {name : String}

/-- No user type has the name of a built-in one. -/
def LeavesBuiltin (catalog : Catalog) : Prop :=
  ∀ name, (builtinSupertypes? name).isSome → catalog.classes.get? name = none

theorem leavesBuiltin_empty : empty.LeavesBuiltin := fun _ _ => rfl

namespace LeavesBuiltin

theorem register (h : catalog.LeavesBuiltin) {c : ClassInfo}
    (hname : builtinSupertypes? c.name = none) : (catalog.register c).LeavesBuiltin := by
  intro name hbuiltin
  have hne : c.name ≠ name := by
    rintro rfl
    rw [hname] at hbuiltin
    cases hbuiltin
  rw [Catalog.register, Bindings.get?_insert, if_neg hne]
  exact h name hbuiltin

theorem addImport (h : catalog.LeavesBuiltin) (shortName typeName : String) :
    (catalog.addImport shortName typeName).LeavesBuiltin :=
  h

theorem directSupertypes_eq (h : catalog.LeavesBuiltin) {supertypes : List String}
    (hname : builtinSupertypes? name = some supertypes) :
    catalog.directSupertypes name = supertypes := by
  rw [directSupertypes, h name (by rw [hname]; rfl), hname]
  rfl

theorem ancestry_eq (h : catalog.LeavesBuiltin) (hname : (builtinSupertypes? name).isSome) :
    catalog.ancestry name = empty.ancestry name := by
  obtain ⟨chain, hwalks, hchain⟩ := catalog.walks_ancestry name
  obtain ⟨chain', hwalks', hchain'⟩ := empty.walks_ancestry name
  have hsupers : ∀ name, (builtinSupertypes? name).isSome →
      catalog.directSupertypes name = empty.directSupertypes name := by
    intro name hname
    obtain ⟨supertypes, hsupertypes⟩ := Option.isSome_iff_exists.mp hname
    rw [h.directSupertypes_eq hsupertypes, leavesBuiltin_empty.directSupertypes_eq hsupertypes]
  have habove : ∀ name, (builtinSupertypes? name).isSome →
      ∀ above ∈ catalog.directSupertypes name, (builtinSupertypes? above).isSome := by
    intro name hname above hmem
    obtain ⟨supertypes, hsupertypes⟩ := Option.isSome_iff_exists.mp hname
    rw [h.directSupertypes_eq hsupertypes] at hmem
    exact isSome_builtinSupertypes?_of_mem hsupertypes hmem
  have hqueue : ∀ other ∈ [name], (builtinSupertypes? other).isSome := by simpa using hname
  rw [hchain, hchain', (hwalks.congr_on hsupers habove hqueue).unique hwalks']

end LeavesBuiltin

end Catalog

theorem Registry.method?_of_leavesBuiltin (registry : Registry) {catalog : Catalog}
    (h : catalog.LeavesBuiltin) {type : String} (htype : (builtinSupertypes? type).isSome)
    (name : String) : registry.method? catalog type name = registry.method? .empty type name := by
  rw [method?, method?, h.ancestry_eq htype]

end ObjectQuery
