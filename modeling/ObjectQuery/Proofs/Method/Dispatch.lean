import ObjectQuery.Method.Registry
import ObjectQuery.Proofs.Catalog.Registration

/-!
What a registry answers after a sequence of registrations. Main statement: a call is dispatched to
the method registered last under its name, in any letter case, for the first type of the ancestry
for which one was registered under it at all. So a registration matters to no other calls than those
that meet its type before any other type with a method of the name, and functions and methods do not
matter to one another.
-/

namespace ObjectQuery

/-! ### Letter case -/

namespace CaseMapping

theorem lowerChar_of_ascii : ∀ n < 128, lowerChar (Char.ofNat n) = [(Char.ofNat n).toLower] := by
  decide +kernel

/-- Only a capital sigma looks at the letters around it, so a text of ASCII characters takes them
one by one. -/
theorem lower_of_ascii {s : String} (h : ∀ c ∈ s.toList, c.toNat < 128) : lower s = s.toLower := by
  have hfrom : ∀ (cs before : List Char), (∀ c ∈ cs, c.toNat < 128) →
      lowerFrom before cs = cs.map Char.toLower := by
    intro cs
    induction cs with
    | nil => exact fun _ _ => rfl
    | cons c rest ih =>
      intro before hcs
      obtain ⟨hc, hrest⟩ := List.forall_mem_cons.mp hcs
      have hsigma : (c == capitalSigma) = false := by
        refine beq_false_of_ne ?_
        rintro rfl
        exact absurd hc (by decide)
      have hlower := lowerChar_of_ascii c.toNat hc
      rw [Char.ofNat_toNat] at hlower
      rw [lowerFrom, hsigma, ih _ hrest, List.map_cons]
      exact congrArg (· ++ rest.map Char.toLower) hlower
  rw [lower, hfrom _ _ h, String.toLower, ← String.toList_map, String.ofList_toList]

end CaseMapping

/-! ### Registrations -/

/-- A method of a type, or a function if there is no type, under a name. -/
structure Registration where
  receiverType : Option String
  name : String
  method : Method

namespace Registration

/-- A registration for a type, or for functions if there is none, under a name in any letter case.
-/
def IsFor (r : Registration) (type? : Option String) (name : String) : Prop :=
  r.receiverType = type? ∧ CaseMapping.lower r.name = CaseMapping.lower name

instance (r : Registration) (type? : Option String) (name : String) :
    Decidable (r.IsFor type? name) :=
  inferInstanceAs (Decidable (_ ∧ _))

/-- Something is registered for a type under a name. -/
def Any (registrations : List Registration) (type? : Option String) (name : String) : Prop :=
  ∃ r ∈ registrations, r.IsFor type? name

instance (registrations : List Registration) (type? : Option String) (name : String) :
    Decidable (Any registrations type? name) :=
  inferInstanceAs (Decidable (∃ r ∈ registrations, r.IsFor type? name))

/-- The method is the one registered last for a type under a name. -/
def IsLast (registrations : List Registration) (type? : Option String) (name : String)
    (method : Method) : Prop :=
  ∃ before r after, registrations = before ++ r :: after ∧ r.IsFor type? name ∧ r.method = method ∧
    ¬ Any after type? name

/-- The method registered last for a type under a name, if there is one. -/
def last? (registrations : List Registration) (type? : Option String) (name : String) :
    Option Method :=
  (registrations.reverse.find? fun r => r.IsFor type? name).map (·.method)

variable {registrations : List Registration} {type? : Option String} {name : String}
  {method : Method}

theorem last?_append_singleton (registrations : List Registration) (r : Registration)
    (type? : Option String) (name : String) :
    last? (registrations ++ [r]) type? name =
      if r.IsFor type? name then some r.method else last? registrations type? name := by
  rw [last?, List.reverse_concat, List.find?_cons]
  by_cases h : r.IsFor type? name
  · simp [h]
  · simp [h, last?]

theorem last?_eq_none_iff : last? registrations type? name = none ↔
    ¬ Any registrations type? name := by
  simp [last?, Any]

theorem last?_eq_some_iff :
    last? registrations type? name = some method ↔ IsLast registrations type? name method := by
  rw [last?, Option.map_eq_some_iff]
  constructor
  · rintro ⟨r, hfind, rfl⟩
    obtain ⟨hr, after, before, hsplit, hafter⟩ := List.find?_eq_some_iff_append.mp hfind
    refine ⟨before.reverse, r, after.reverse, ?_, by simpa using hr, rfl, ?_⟩
    · rw [← List.reverse_inj, hsplit]
      simp
    · rintro ⟨later, hlater, hfor⟩
      simpa [hfor] using hafter later (List.mem_reverse.mp hlater)
  · rintro ⟨before, r, after, rfl, hr, rfl, hafter⟩
    refine ⟨r, List.find?_eq_some_iff_append.mpr
      ⟨by simpa using hr, after.reverse, before.reverse, by simp, fun later hlater => ?_⟩, rfl⟩
    have hnot : ¬ later.IsFor type? name := fun hfor =>
      hafter ⟨later, List.mem_reverse.mp hlater, hfor⟩
    simpa using hnot

end Registration

namespace Registry

open Registration

variable {catalog : Catalog} {registry : Registry} {registrations : List Registration}
  {r : Registration} {type? : Option String} {type name : String} {method : Method}

def add (registry : Registry) (r : Registration) : Registry :=
  registry.register r.receiverType r.name r.method

def ofRegistrations (registrations : List Registration) : Registry := registrations.foldl add empty

/-- What is registered for a type, or as a function if there is none. -/
def registered? (registry : Registry) (type? : Option String) (name : String) : Option Method :=
  match type? with
  | none => registry.function? name
  | some type => registry.ownMethod? type name

theorem ofRegistrations_append_singleton (registrations : List Registration) (r : Registration) :
    ofRegistrations (registrations ++ [r]) = (ofRegistrations registrations).add r :=
  List.foldl_concat ..

theorem registered?_add (registry : Registry) (r : Registration) (type? : Option String)
    (name : String) :
    (registry.add r).registered? type? name =
      if r.IsFor type? name then some r.method else registry.registered? type? name := by
  obtain ⟨receiverType, added, method⟩ := r
  cases receiverType with
  | none =>
    cases type? with
    | none => simp [add, register, registered?, function?, Bindings.get?_insert, IsFor, key]
    | some type => simp [add, register, registered?, ownMethod?, IsFor]
  | some receiver =>
    cases type? with
    | none => simp [add, register, registered?, function?, IsFor]
    | some type =>
      simp only [add, register, registered?, ownMethod?, Bindings.get?_insert, IsFor, key,
        Option.some.injEq]
      by_cases hreceiver : receiver = type
      · subst hreceiver
        cases registry.methods.get? receiver <;> simp [Bindings.get?_insert, Bindings.get?]
      · simp [hreceiver]

theorem registered?_ofRegistrations (registrations : List Registration) (type? : Option String)
    (name : String) :
    (ofRegistrations registrations).registered? type? name = last? registrations type? name := by
  induction registrations using List.reverseRecOn with
  | nil => cases type? <;> rfl
  | append_singleton before r ih =>
    rw [ofRegistrations_append_singleton, registered?_add, ih, last?_append_singleton]

/-! ### Dispatch -/

/-- Among types in order, the type has nothing of the name registered for the types before it. -/
def Meets (registrations : List Registration) (types : List String) (name type : String) : Prop :=
  ∃ nearer further, types = nearer ++ type :: further ∧
    ∀ before ∈ nearer, ¬ Any registrations (some before) name

theorem method?_ofRegistrations (registrations : List Registration) (catalog : Catalog)
    (type name : String) :
    (ofRegistrations registrations).method? catalog type name =
      (catalog.ancestry type).findSome? fun ancestor =>
        last? registrations (some ancestor) name := by
  rw [method?]
  congr 1
  funext ancestor
  exact registered?_ofRegistrations registrations (some ancestor) name

theorem findSome?_last?_eq_some_iff {types : List String} :
    types.findSome? (fun type => last? registrations (some type) name) = some method ↔
      ∃ type, Meets registrations types name type ∧
        IsLast registrations (some type) name method := by
  simp only [List.findSome?_eq_some_iff, last?_eq_some_iff, last?_eq_none_iff]
  constructor
  · rintro ⟨nearer, type, further, hsplit, hlast, hnearer⟩
    exact ⟨type, ⟨nearer, further, hsplit, hnearer⟩, hlast⟩
  · rintro ⟨type, ⟨nearer, further, hsplit, hnearer⟩, hlast⟩
    exact ⟨nearer, type, further, hsplit, hlast, hnearer⟩

theorem findSome?_last?_append_singleton (registrations : List Registration) (r : Registration)
    (name : String) (types : List String) :
    types.findSome? (fun type => last? (registrations ++ [r]) (some type) name) =
        types.findSome? (fun type => last? registrations (some type) name) ∨
      ∃ type, r.IsFor (some type) name ∧ Meets registrations types name type ∧
        types.findSome? (fun type => last? (registrations ++ [r]) (some type) name) =
          some r.method := by
  induction types with
  | nil => exact .inl rfl
  | cons first rest ih =>
    simp only [List.findSome?_cons, last?_append_singleton]
    by_cases hfirst : r.IsFor (some first) name
    · refine .inr ⟨first, hfirst, ⟨[], rest, rfl, by simp⟩, ?_⟩
      rw [if_pos hfirst]
    · rw [if_neg hfirst]
      cases hlast : last? registrations (some first) name with
      | some method => exact .inl rfl
      | none =>
        simp only [last?_append_singleton] at ih
        refine ih.imp_right ?_
        rintro ⟨type, htype, ⟨nearer, further, hsplit, hnearer⟩, hfound⟩
        refine ⟨type, htype, ⟨first :: nearer, further, by rw [hsplit]; rfl, ?_⟩, hfound⟩
        exact List.forall_mem_cons.mpr ⟨last?_eq_none_iff.mp hlast, hnearer⟩

/-- After any registrations a method of a type is the one registered last under the name for the
first type of the ancestry for which any was, and there is none if none was for a type of the
ancestry. A registration changes it only if its type is in the ancestry and no type before has a
method of the name, and then is the answer. Functions change no methods, and methods no functions.
In names of ASCII letters no case matters. -/
theorem dispatched_to_nearest (registrations : List Registration) (catalog : Catalog)
    (type name : String) :
    let registry := ofRegistrations registrations
    let types := catalog.ancestry type
    (∀ method, registry.method? catalog type name = some method ↔
      ∃ ancestor, Meets registrations types name ancestor ∧
        IsLast registrations (some ancestor) name method) ∧
    (registry.method? catalog type name = none ↔
      ∀ ancestor ∈ types, ¬ Any registrations (some ancestor) name) ∧
    (∀ method, registry.function? name = some method ↔ IsLast registrations none name method) ∧
    (∀ r, (registry.add r).method? catalog type name ≠ registry.method? catalog type name →
      ∃ ancestor, r.IsFor (some ancestor) name ∧ Meets registrations types name ancestor ∧
        (registry.add r).method? catalog type name = some r.method) ∧
    (∀ r, r.receiverType = none →
      (registry.add r).method? catalog type name = registry.method? catalog type name ∧
        (registry.add r).methodByName? name = registry.methodByName? name) ∧
    (∀ r, r.receiverType ≠ none → (registry.add r).function? name = registry.function? name) ∧
    ∀ r : Registration, (∀ c ∈ r.name.toList, c.toNat < 128) → (∀ c ∈ name.toList, c.toNat < 128) →
      ∀ type?, r.IsFor type? name ↔ r.receiverType = type? ∧ r.name.toLower = name.toLower := by
  intro registry types
  have hmethod : registry.method? catalog type name =
      types.findSome? fun ancestor => last? registrations (some ancestor) name :=
    method?_ofRegistrations registrations catalog type name
  refine ⟨fun method => ?_, ?_, fun method => ?_, fun r hchanged => ?_, fun r hfunction => ?_,
    fun r hr => ?_, fun r hr hname type? => ?_⟩
  · rw [hmethod, findSome?_last?_eq_some_iff]
  · simp only [hmethod, List.findSome?_eq_none_iff, last?_eq_none_iff]
  · rw [← last?_eq_some_iff, ← registered?_ofRegistrations]
    rfl
  · have hadded : (registry.add r).method? catalog type name =
        types.findSome? fun ancestor => last? (registrations ++ [r]) (some ancestor) name := by
      rw [← method?_ofRegistrations, ofRegistrations_append_singleton]
    rw [hadded, hmethod] at hchanged
    rw [hadded]
    exact (findSome?_last?_append_singleton registrations r name types).resolve_left hchanged
  · obtain ⟨receiverType, added, method⟩ := r
    obtain rfl : receiverType = none := hfunction
    exact ⟨rfl, rfl⟩
  · obtain ⟨receiverType, added, method⟩ := r
    obtain ⟨receiver, rfl⟩ := Option.ne_none_iff_exists'.mp hr
    rfl
  · rw [IsFor, CaseMapping.lower_of_ascii hr, CaseMapping.lower_of_ascii hname]

/-- One name in two cases for collections, between objects and functions. -/
def sizes : List Registration :=
  [⟨some "Collection", "size", .collection .size⟩, ⟨some rootType, "size", .identity⟩,
    ⟨some "Collection", "SIZE", .collection .length⟩, ⟨none, "size", .identityOf⟩]

/-- A list has the later method of collections, not that of objects, and another one for objects
does not change it. -/
theorem dispatched_to_nearest_sizes :
    (ofRegistrations sizes).method? .empty "List" "Size" = some (.collection .length) ∧
      ((ofRegistrations sizes).add
        ⟨some rootType, "sizE", .identityOf⟩).method? .empty "List" "Size" =
        some (.collection .length) := by
  obtain ⟨hsome, -, -, hchange, -⟩ := dispatched_to_nearest sizes .empty "List" "Size"
  have htypes : Catalog.empty.ancestry "List" = ["List", "Collection", "Iterable", rootType] := by
    decide +kernel
  have hfound := (hsome (.collection .length)).mpr ⟨"Collection",
    ⟨["List"], ["Iterable", rootType], htypes, by decide +kernel⟩,
    ⟨sizes.take 2, ⟨some "Collection", "SIZE", .collection .length⟩, sizes.drop 3, rfl,
      by decide +kernel, rfl, by decide +kernel⟩⟩
  refine ⟨hfound, ?_⟩
  rw [← hfound]
  by_contra hne
  obtain ⟨ancestor, ⟨hroot, -⟩, ⟨nearer, further, hsplit, hnearer⟩, -⟩ := hchange _ hne
  obtain rfl : rootType = ancestor := Option.some.inj hroot
  have hmem : "Collection" ∈ nearer := by
    rw [htypes] at hsplit
    obtain _ | ⟨first, _ | ⟨second, rest⟩⟩ := nearer
    · exact absurd (List.cons.inj hsplit).1 (by decide)
    · exact absurd (List.cons.inj (List.cons.inj hsplit).2).1 (by decide)
    · rw [(List.cons.inj (List.cons.inj hsplit).2).1]
      simp
  exact hnearer _ hmem (by decide +kernel)

end Registry

end ObjectQuery
