import ObjectQuery.Proofs.Evaluation.Conversion
import ObjectQuery.Proofs.Method.Calling
import ObjectQuery.Proofs.Value.Symmetry

/-!
The tests of maps by key, by value and by entry. Main statement: a map contains an entry exactly if
one of its entries has the key and the value and no earlier one has the key with another value. Keys
of different kinds can be equal to one and the same, so a map can hold an entry that it does not
contain.
-/

namespace ObjectQuery

namespace MapMethod

variable {entries : List (Value × Value)} {key value : Value}

/-! ### Entries -/

/-- One of the entries has the key and the value. -/
def Stores (entries : List (Value × Value)) (key value : Value) : Prop :=
  ∃ entry ∈ entries, entry.1.looseEq key ∧ entry.2.looseEq value

/-- An entry that has the key and the value stands behind the first one that has the key, and this
one has another value. -/
def Shadowed (entries : List (Value × Value)) (key value : Value) : Prop :=
  ∃ before first after, entries = before ++ first :: after ∧
    (∀ entry ∈ before, ¬ entry.1.looseEq key) ∧ first.1.looseEq key ∧ ¬ first.2.looseEq value ∧
    Stores after key value

/-- No two entries have keys that are equal to one and the same. -/
def KeysApart (entries : List (Value × Value)) : Prop :=
  entries.Pairwise fun x y => ∀ key : Value, ¬ (x.1.looseEq key ∧ y.1.looseEq key)

theorem stores_iff_looseEq : Stores entries key value ↔
    ∃ entry ∈ entries, (Value.map [entry]).looseEq (.map [(key, value)]) := by
  simp [Stores, Value.looseEq, Value.looseSubmap_iff]

theorem KeysApart.not_shadowed (h : KeysApart entries) : ¬ Shadowed entries key value := by
  rintro ⟨before, first, after, rfl, -, hfirst, -, later, hlater, hkey, -⟩
  obtain ⟨-, hafter, -⟩ := List.pairwise_append.mp h
  exact (List.pairwise_cons.mp hafter).1 later hlater key ⟨hfirst, hkey⟩

/-! ### What is looked up -/

theorem lookup?_isSome_iff :
    (lookup? entries key).isSome ↔ ∃ entry ∈ entries, entry.1.looseEq key := by
  simp [lookup?, List.find?_isSome]

theorem lookup?_eq_some_iff {stored : Value} : lookup? entries key = some stored ↔
    ∃ before first after, entries = before ++ first :: after ∧
      (∀ entry ∈ before, ¬ entry.1.looseEq key) ∧ first.1.looseEq key ∧ first.2 = stored := by
  simp only [lookup?, Option.map_eq_some_iff, List.find?_eq_some_iff_append]
  constructor
  · rintro ⟨first, ⟨hkey, before, after, rfl, hbefore⟩, rfl⟩
    exact ⟨before, first, after, rfl, by simpa using hbefore, hkey, rfl⟩
  · rintro ⟨before, first, after, rfl, hbefore, hkey, rfl⟩
    exact ⟨first, ⟨hkey, before, after, rfl, by simpa using hbefore⟩, rfl⟩

theorem containsValueOf_iff :
    containsValueOf entries value ↔ ∃ entry ∈ entries, entry.2.looseEq value := by
  simp [containsValueOf]

theorem any_lookup?_iff : (lookup? entries key).any (fun stored => stored.looseEq value) ↔
    Stores entries key value ∧ ¬ Shadowed entries key value := by
  cases hlookup : lookup? entries key with
  | none =>
    have hnone : ¬ ∃ entry ∈ entries, entry.1.looseEq key := by
      rw [← lookup?_isSome_iff, hlookup]
      simp
    simp only [Option.any_none, Bool.false_eq_true, false_iff, not_and]
    rintro ⟨entry, hentry, hkey, -⟩
    exact absurd ⟨entry, hentry, hkey⟩ hnone
  | some stored =>
    obtain ⟨before, first, after, rfl, hbefore, hkey, rfl⟩ := lookup?_eq_some_iff.mp hlookup
    rw [Option.any_some]
    constructor
    · intro hvalue
      refine ⟨⟨first, by simp, hkey, hvalue⟩, ?_⟩
      rintro ⟨before', first', after', hsplit, hbefore', hkey', hvalue', -⟩
      -- The first entry that has the key is one and the same.
      have hlookup' := lookup?_eq_some_iff.mpr
        ⟨before', first', after', hsplit, hbefore', hkey', rfl⟩
      rw [hlookup, Option.some_inj] at hlookup'
      exact hvalue' (hlookup' ▸ hvalue)
    · rintro ⟨⟨entry, hentry, hentryKey, hentryValue⟩, hunshadowed⟩
      by_contra hvalue
      refine hunshadowed ⟨before, first, after, rfl, hbefore, hkey, hvalue, entry, ?_, hentryKey,
        hentryValue⟩
      rcases List.mem_append.mp hentry with hentry | hentry
      · exact absurd hentryKey (hbefore entry hentry)
      · rcases List.mem_cons.mp hentry with rfl | hentry
        · exact absurd hentryValue hvalue
        · exact hentry

end MapMethod

/-! ### Calls -/

/-- Maps have the methods of maps. -/
def Registry.HasMapMethods (registry : Registry) : Prop :=
  ∀ method : MapMethod, registry.ownMethod? DataType.map.name method.name = some (.map method)

theorem Registry.hasMapMethods_builtin : builtin.HasMapMethods := by
  intro method
  cases method <;> rfl

namespace Expr

open MapMethod

variable {env : Environment} {context : Context} {e keyArg valueArg : Expr}
  {entries : List (Value × Value)} {key value : Value}

section Tests

variable (hregistry : env.registry.HasMapMethods)
  (hmap : e.Evaluates env context (.value (.map entries)))

include hregistry hmap

theorem Evaluates.mapMethod {method : MapMethod} {args : List Expr} {operand : Operand}
    (happly : ∀ supply, ∃ trace after,
      Settles (method.apply (e.callOf env method.name args none) entries) context supply
        ⟨.ok operand, context, trace, after⟩) :
    (callMethod e method.name args).Evaluates env context operand := by
  have htype : (Value.map entries).typeName? = some DataType.map.name := rfl
  have hmethod := Registry.method?_of_ownMethod? env.catalog (by decide) (hregistry method)
  exact hmap.method htype hmethod happly

theorem evaluates_containsKey (hkey : keyArg.Evaluates env context (.value key)) :
    (callMethod e containsKey.name [keyArg]).Evaluates env context
      (.ofBool (lookup? entries key).isSome) := by
  refine hmap.mapMethod hregistry fun supply => ?_
  obtain ⟨trace, after, hargument⟩ := hkey.member (entries.map (·.1)) supply
  exact ⟨_, after, .bind (.pure ()) (hargument.bind (.pure _))⟩

theorem evaluates_containsValue (hvalue : valueArg.Evaluates env context (.value value)) :
    (callMethod e containsValue.name [valueArg]).Evaluates env context
      (.ofBool (containsValueOf entries value)) := by
  refine hmap.mapMethod hregistry fun supply => ?_
  obtain ⟨trace, after, hargument⟩ := hvalue.member (entries.map (·.2)) supply
  exact ⟨_, after, .bind (.pure ()) (hargument.bind (.pure _))⟩

theorem evaluates_containsEntry_absent (hkey : keyArg.Evaluates env context (.value key))
    (habsent : lookup? entries key = none) :
    (callMethod e containsEntry.name [keyArg, valueArg]).Evaluates env context (.ofBool false) := by
  refine hmap.mapMethod hregistry fun supply => ?_
  obtain ⟨trace, after, hargument⟩ := hkey.member (entries.map (·.1)) supply
  have hstored : Settles (equalsStored (valueArg.argument env) (lookup? entries key)) context after
      ⟨.ok (.ofBool false), context, .empty, after⟩ := by
    rw [habsent]
    exact .pure _
  exact ⟨_, after, .bind (.pure ()) (hargument.bind hstored)⟩

theorem evaluates_containsEntry (hkey : keyArg.Evaluates env context (.value key))
    (hvalue : valueArg.Evaluates env context (.value value)) :
    (callMethod e containsEntry.name [keyArg, valueArg]).Evaluates env context
      (.ofBool ((lookup? entries key).any fun stored => stored.looseEq value)) := by
  cases hlookup : lookup? entries key with
  | none => exact evaluates_containsEntry_absent hregistry hmap hkey hlookup
  | some stored =>
    refine hmap.mapMethod hregistry fun supply => ?_
    obtain ⟨trace, middle, hargument⟩ := hkey.member (entries.map (·.1)) supply
    obtain ⟨trace', after, hargument'⟩ := hvalue.member [stored] middle
    have hstored : Settles (equalsStored (valueArg.argument env) (lookup? entries key)) context
        middle ⟨.ok (.ofBool (stored.looseEq value)), context, trace' ++ .empty, after⟩ := by
      rw [hlookup]
      exact hargument'.bind (.pure _)
    exact ⟨_, after, .bind (.pure ()) (hargument.bind hstored)⟩

/-- What the tests of a map answer: whether it has the key, the value and the entry. -/
structure EntryAnswers (env : Environment) (context : Context) (e keyArg valueArg : Expr)
    (hasKey hasValue hasEntry : Bool) : Prop where
  key : (callMethod e containsKey.name [keyArg]).Evaluates env context (.ofBool hasKey)
  value : (callMethod e containsValue.name [valueArg]).Evaluates env context (.ofBool hasValue)
  entry : (callMethod e containsEntry.name [keyArg, valueArg]).Evaluates env context
    (.ofBool hasEntry)

/-- A map contains an entry exactly if one of its entries has the key and the value (the test by
which maps are equal) and is not behind the first one that has the key, with another value. Then it
contains the key and the value. Where no two keys are equal to one and the same, all entries are
seen. -/
theorem containsEntry_iff_not_shadowed (hkey : keyArg.Evaluates env context (.value key))
    (hvalue : valueArg.Evaluates env context (.value value)) :
    ∃ hasKey hasValue hasEntry,
      EntryAnswers env context e keyArg valueArg hasKey hasValue hasEntry ∧
      (hasKey ↔ ∃ entry ∈ entries, entry.1.looseEq key) ∧
      (hasValue ↔ ∃ entry ∈ entries, entry.2.looseEq value) ∧
      (hasEntry ↔ Stores entries key value ∧ ¬ Shadowed entries key value) ∧
      (hasEntry → hasKey ∧ hasValue) ∧
      (Stores entries key value ↔
        ∃ entry ∈ entries, (Value.map [entry]).looseEq (.map [(key, value)])) ∧
      (KeysApart entries → (hasEntry ↔ Stores entries key value)) := by
  refine ⟨_, _, _, ⟨evaluates_containsKey hregistry hmap hkey,
    evaluates_containsValue hregistry hmap hvalue,
      evaluates_containsEntry hregistry hmap hkey hvalue⟩,
    lookup?_isSome_iff, containsValueOf_iff, any_lookup?_iff, ?_, stores_iff_looseEq, ?_⟩
  · rw [any_lookup?_iff, lookup?_isSome_iff, containsValueOf_iff]
    rintro ⟨⟨entry, hentry, hkey, hvalue⟩, -⟩
    exact ⟨⟨entry, hentry, hkey⟩, entry, hentry, hvalue⟩
  · intro hapart
    rw [any_lookup?_iff]
    exact and_iff_left hapart.not_shadowed

end Tests

/-- The text of one character is found under the character, with a number of another kind. -/
theorem containsEntry_iff_not_shadowed_character :
    let env : Environment := ⟨.empty, .builtin, .detached⟩
    let map : List (Value × Value) := [(.char 'a', .int 1), (.string "b", .long 2)]
    let context := candidateContext (.map map)
    env.registry.HasMapMethods ∧ candidate.Evaluates env context (.value (.map map)) ∧
      (literal (.string "a")).Evaluates env context (.value (.string "a")) ∧
      (literal (.long 1)).Evaluates env context (.value (.long 1)) ∧
      (callMethod candidate "containsEntry" [literal (.string "a"), literal (.long 1)]).Evaluates
        env context (.ofBool true) := by
  intro env map context
  have hregistry : env.registry.HasMapMethods := Registry.hasMapMethods_builtin
  have hmap : candidate.Evaluates env context (.value (.map map)) := evaluates_candidate env rfl
  have hkey : (literal (.string "a")).Evaluates env context _ := evaluates_literal _
  have hvalue : (literal (.long 1)).Evaluates env context _ := evaluates_literal _
  obtain ⟨hasKey, hasValue, hasEntry, hanswers, -, -, hentry, -⟩ :=
    containsEntry_iff_not_shadowed hregistry hmap hkey hvalue
  obtain rfl : hasEntry = true := hentry.mpr (any_lookup?_iff.mp (by decide +kernel))
  exact ⟨hregistry, hmap, hkey, hvalue, hanswers.entry⟩

/-- The number 1 is a key twice, as two kinds. The second entry is there by key and value of its
very kinds, and the key and the value are found, but not the entry. -/
theorem containsEntry_misses_second :
    let env : Environment := ⟨.empty, .builtin, .detached⟩
    let map : List (Value × Value) := [(.int 1, .string "a"), (.long 1, .string "b")]
    let context := candidateContext (.map map)
    Stores map (.long 1) (.string "b") ∧
      EntryAnswers env context candidate (literal (.long 1)) (literal (.string "b"))
        true true false ∧
      ¬ (callMethod candidate "containsEntry" [literal (.long 1), literal (.string "b")]).Evaluates
        env context (.ofBool true) := by
  intro env map context
  have hregistry : env.registry.HasMapMethods := Registry.hasMapMethods_builtin
  have hmap : candidate.Evaluates env context (.value (.map map)) := evaluates_candidate env rfl
  have hkey : (literal (.long 1)).Evaluates env context _ := evaluates_literal _
  have hvalue : (literal (.string "b")).Evaluates env context _ := evaluates_literal _
  have hanswers : EntryAnswers env context candidate (literal (.long 1)) (literal (.string "b"))
      true true false := {
    key := evaluates_containsKey hregistry hmap hkey
    value := evaluates_containsValue hregistry hmap hvalue
    entry := evaluates_containsEntry hregistry hmap hkey hvalue }
  refine ⟨⟨(.long 1, .string "b"), by simp [map], by decide +kernel, by decide +kernel⟩, hanswers,
    fun h => ?_⟩
  cases hanswers.entry.unique h

end Expr

end ObjectQuery
